import IsaForge.Error
import IsaForge.Text.Blank

/-!
Records: a description has one record a line, split into columns. `Record.parseLine` reads a line and `Record.parseSource`
a whole description; blank lines and lines that begin with `#` hold no record. Nothing in a record is interpreted yet.
-/

namespace IsaForge

open Grammar (Peg Rule)

/-- Where the definition of an instruction comes from. -/
structure Provenance where
  /-- A custom extension, marked `+`. -/
  custom : Bool := false
  /-- The behaviour is taken from a reference model, marked `!`. -/
  reference : Bool := false
deriving DecidableEq, Repr

/-- The provenance that a run of markers gives. -/
def Provenance.ofMarkers (markers : List Char) : Provenance where
  custom := markers.contains '+'
  reference := markers.contains '!'

/-- One line of a description, split into its columns. -/
structure Record where
  line : Nat
  provenance : Provenance
  opcode : String
  assembly : String
  attributes : List String
  bitPattern : String
  operands : String
  action : String
deriving DecidableEq, Repr

namespace Record

/-! ### The grammar of a line -/

/-- The columns of a line as they stand in it. -/
structure Row where
  provenance : Provenance
  opcode : String
  assembly : String
  attributes : String
  bitPattern : String
  operands : String
  action : String

/-- The markers in front of an opcode. -/
def kind : Peg Rule Provenance :=
  .rule .kind .sealed (.map Provenance.ofMarkers (.several (.char fun c => c == '+' || c == '!')))

/-- An opcode: a name that may hold dots. -/
def opcodeName : Peg Rule String :=
  .rule .opcode .sealed
    (.map (fun (c, cs) => String.ofList (c :: cs))
      (.seq (.char Grammar.isNameStart) (.many (.char fun c => Grammar.isNamePart c || c == '.'))))

/-- A column that ends at a gap or a quotation mark. -/
def bareColumn (name : Rule) : Peg Rule String :=
  .rule name .sealed (.map String.ofList (.several (.char fun c => !(Grammar.isGap c || c == '"'))))

/-- A column between quotation marks. -/
def quotedColumn (name : Rule) (text : Peg Rule String) : Peg Rule String :=
  .rule name .joined (.before (.exactly '"') (.after text (.exactly '"')))

/-- The text of a bit pattern, which holds no quotation mark. -/
def patternText : Peg Rule String :=
  .rule .patternText .sealed (.map String.ofList (.many (.char (· != '"'))))

/-- The text of an action. It may hold quotation marks: only one with nothing but gaps after it ends the action. -/
def actionText : Peg Rule String :=
  let closing : Peg Rule Unit := .before (.exactly '"') (.before (.many (.char Grammar.isGap)) Grammar.finish)
  .rule .actionText .sealed
    (.map String.ofList (.many (.before (.absent closing) (.char fun _ => true))))

/-- A whole record. -/
def row : Peg Rule Row :=
  .rule .record .spaced
    (.map
      (fun (_, provenance?, opcode, assembly, attributes, bitPattern, operands, action, _) =>
        ⟨provenance?.getD {}, opcode, assembly, attributes, bitPattern, operands, action⟩)
      (.seq .start (.seq (.optional kind) (.seq opcodeName (.seq (bareColumn .assembly)
        (.seq (bareColumn .attributes) (.seq (quotedColumn .bitPattern patternText)
          (.seq (bareColumn .operands) (.seq (quotedColumn .action actionText) Grammar.finish)))))))))

/-- One attribute: a name or one of the two stop marks. -/
def attributeToken : Peg Rule String :=
  .rule .attribute .sealed
    (.choice (.map (String.ofList [·]) (.exactly '<'))
      (.choice (.map (String.ofList [·]) (.exactly '>')) Grammar.identifier))

/-- A list of attributes; a dash stands for the empty one. -/
def attributeList : Peg Rule (List String) :=
  .rule .attributeList .spaced
    (.before .start
      (.after
        (.choice (.map (fun _ => []) (.exactly '-'))
          (.map (fun (first, others) => first :: others)
            (.seq attributeToken (.many (.before (.exactly ',') attributeToken)))))
        Grammar.finish))

/-! ### Reading -/

/-- The column that a rule reads, for the rules that read one. -/
def columnOf? : Rule → Option Column
  | .opcode => some .opcode
  | .assembly => some .assembly
  | .attributes => some .attributes
  | .bitPattern => some .bitPattern
  | .operands => some .operands
  | .action => some .action
  | _ => none

/-- The column that a failed reading is blamed on: the first one expected, else the markers in front. -/
def failingColumn (failure : Grammar.Failure) : Column :=
  (failure.expected.findSome? columnOf?).getD .kind

/-- The attributes in the text of their column. -/
def parseAttributes (line : Nat) (text : String) : Except Error (List String) :=
  match Grammar.readAll attributeList text.toList with
  | .ok attributes => .ok attributes
  | .error failure => .error (.malformedRecord line .attributes (.unreadableText text failure))

/-- Read a line that holds a record, its blanks at both ends removed. -/
def parseRow (line : Nat) (cs : List Char) : Except Error Record :=
  match Grammar.readAll row cs with
  | .error failure => .error (.malformedRecord line (failingColumn failure) (.unreadable failure))
  | .ok row =>
    match parseAttributes line row.attributes with
    | .error e => .error e
    | .ok attributes => .ok {
        line
        provenance := row.provenance
        opcode := row.opcode
        assembly := row.assembly
        attributes
        bitPattern := Text.trim row.bitPattern
        operands := row.operands
        action := Text.trim row.action }

/-- Read one line. A blank line and a comment hold no record. -/
def parseLine (line : Nat) (text : String) : Except Error (Option Record) :=
  match Text.trimChars text.toList with
  | [] => .ok none
  | '#' :: _ => .ok none
  | cs =>
    match parseRow line cs with
    | .ok record => .ok (some record)
    | .error e => .error e

/-- Read lines in order, the first of which has the number `line`, up to the first malformed one. -/
def parseLines (line : Nat) : List String → Except Error (List Record)
  | [] => .ok []
  | text :: rest =>
    match parseLine line text with
    | .error e => .error e
    | .ok record? =>
      match parseLines (line + 1) rest with
      | .error e => .error e
      | .ok records => .ok (record?.toList ++ records)

/-- Read a whole description. -/
def parseSource (source : String) : Except Error (List Record) :=
  parseLines 1 (Text.lines source)

end Record

end IsaForge
