import IsaForge.Grammar.Peg
import IsaForge.Text.Numeral

/-!
The rules of the description language by name, in the order in which a report lists them, and the report that a failed
reading gives: the column of the furthest position reached and the rules expected there.
-/

namespace IsaForge.Grammar

/-- The rules of the description language. -/
inductive Rule where
  | endOfInput
  | number
  | identifier
  | record
  | kind
  | opcode
  | assembly
  | attributes
  | operands
  | bitPattern
  | patternText
  | action
  | actionText
  | attributeList
  | attribute
  | pattern
  | literalBits
  | filler
  | immediate
  | sign
  | component
  | namedField
  | operandList
  | noOperand
  | constant
  | registerField
  | registerClass
  | bitRange
  | bias
deriving DecidableEq, Repr

namespace Rule

/-- Every rule, in the order of a report. -/
def all : List Rule :=
  [.endOfInput, .number, .identifier, .record, .kind, .opcode, .assembly, .attributes, .operands, .bitPattern,
    .patternText, .action, .actionText, .attributeList, .attribute, .pattern, .literalBits, .filler, .immediate,
    .sign, .component, .namedField, .operandList, .noOperand, .constant, .registerField, .registerClass, .bitRange,
    .bias]

/-- The name a report gives a rule. -/
def label : Rule → String
  | .endOfInput => "EOI"
  | .number => "number"
  | .identifier => "identifier"
  | .record => "record"
  | .kind => "kind"
  | .opcode => "opcode"
  | .assembly => "assembly"
  | .attributes => "attributes"
  | .operands => "operands"
  | .bitPattern => "bit_pattern"
  | .patternText => "pattern_text"
  | .action => "action"
  | .actionText => "action_text"
  | .attributeList => "attribute_list"
  | .attribute => "attribute"
  | .pattern => "pattern"
  | .literalBits => "literal_bits"
  | .filler => "filler"
  | .immediate => "immediate"
  | .sign => "sign"
  | .component => "component"
  | .namedField => "named_field"
  | .operandList => "operand_list"
  | .noOperand => "no_operand"
  | .constant => "constant"
  | .registerField => "register_field"
  | .registerClass => "register_class"
  | .bitRange => "bit_range"
  | .bias => "bias"

end Rule

/-- Why a text could not be read: the column of the furthest position reached and what was expected or excluded
there, each rule once and in the order of a report. -/
structure Failure where
  column : Nat
  expected : List Rule
  excluded : List Rule
deriving DecidableEq, Repr

namespace Failure

/-- Names in a row: `A`, `A or B`, `A, B, or C`. -/
def enumerate : List String → String
  | [] => ""
  | [a] => a
  | [a, b] => a ++ " or " ++ b
  | names => String.intercalate ", " names.dropLast ++ ", or " ++ names.getLastD ""

/-- What was wrong, without the place. -/
def reason (failure : Failure) : String :=
  let expected := enumerate (failure.expected.map Rule.label)
  let excluded := enumerate (failure.excluded.map Rule.label)
  match failure.excluded, failure.expected with
  | [], [] => "unknown parsing error"
  | [], _ => "expected " ++ expected
  | _, [] => "unexpected " ++ excluded
  | _, _ => "unexpected " ++ excluded ++ "; expected " ++ expected

/-- The report of a failed reading. -/
def message (failure : Failure) : String :=
  "at column " ++ Text.decimal failure.column ++ ": " ++ failure.reason

/-- The report that the record of a reading of `cs` gives. -/
def ofAttempts (cs : List Char) (attempts : Attempts Rule) : Failure where
  column := columnFrom 1 (cs.take attempts.position)
  expected := Rule.all.filter attempts.expected.contains
  excluded := Rule.all.filter attempts.excluded.contains

end Failure

/-- Read a whole text by a grammar of the description language. -/
def readAll {α : Type} (g : Peg Rule α) (cs : List Char) : Except Failure α :=
  match g.read cs with
  | some x => .ok x
  | none => .error (.ofAttempts cs (g.attempts cs))

/-! ### Rules that several grammars share -/

/-- Letters, digits and the underscore, as far as an identifier may begin with them. -/
def isNameStart (c : Char) : Bool :=
  c.isAlpha || c == '_'

/-- The characters that may continue an identifier. -/
def isNamePart (c : Char) : Bool :=
  c.isAlphanum || c == '_'

/-- A run of decimal digits. -/
def number : Peg Rule String :=
  .rule .number .sealed (.map String.ofList (.several (.char Char.isDigit)))

/-- A name: a letter or an underscore, then letters, digits and underscores. -/
def identifier : Peg Rule String :=
  .rule .identifier .sealed
    (.map (fun (c, cs) => String.ofList (c :: cs)) (.seq (.char isNameStart) (.many (.char isNamePart))))

/-- The end of the text. -/
def finish : Peg Rule Unit :=
  .finish .endOfInput

end IsaForge.Grammar
