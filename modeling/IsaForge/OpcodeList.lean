import IsaForge.Code.Expr
import IsaForge.Table

/-!
The generated list of opcodes: the enumeration with its names, the flags of the two axes and their values for every
opcode, the sets of opcodes that end a block, and the extractors of the named fields.
-/

namespace IsaForge.OpcodeList

open Code

/-! ### Flags -/

/-- The flag that a token would have if it were the only one. -/
def flagBase (token : String) : String :=
  if token = TokenSet.stopBeforeToken then "STOP_BEFORE"
  else if token = TokenSet.stopAfterToken then "STOP_AFTER"
  else String.ofList (token.toList.map Char.toUpper)

/-- Flags for tokens at the given positions, where `used` are the names taken before. A token whose flag is taken gets
its position added. -/
def flagsAfter (used : List String) : List (String × Nat) → List String
  | [] => []
  | (token, position) :: rest =>
    let base := flagBase token
    let flag := if used.contains base then base ++ "_" ++ Text.decimal position else base
    flag :: flagsAfter (flag :: base :: used) rest

/-- The names of the flags of an axis, by position. -/
def flagNames (axis : AxisMap) : List String :=
  (flagsAfter [] axis.positions).map identText

/-- How many hexadecimal digits a value of an axis has. -/
def flagDigits (axis : AxisMap) : Nat :=
  axis.storage.bits / 4

/-- The type of the flags of an axis. -/
def flagsItem (name : String) (axis : AxisMap) : List Tree :=
  let flag (flagName : String) (token : String) (position : Nat) : List Tree :=
    doc ("`" ++ token ++ "`") ++ fixed "const" ++ [.ident flagName] ++ fixed "=" ++
      [.hexadecimal (1 <<< position) (flagDigits axis)] ++ fixed ";"
  fixed "bitflags::bitflags!" ++
    braces (attributed "derive(Debug, Clone, Copy, PartialEq, Eq, Hash)" ++
      fixed "pub struct" ++ [.name name, .punct ':' .alone, .ident ("u" ++ Text.decimal axis.storage.bits)] ++
      braces (((flagNames axis).zip axis.positions).flatMap fun (flagName, token, position) =>
        flag flagName token position))

/-! ### Values of every opcode -/

/-- The flags of every opcode; a sentinel has none. -/
def flagValues (table : Table) (bitsOf : TokenSet → BitVec 64) : List (BitVec 64) :=
  table.entries.map fun entry =>
    match entry.instruction? with
    | none => 0
    | some instruction => bitsOf instruction.tokens

/-- The instruction sets that every opcode requires. -/
def requiredIsa (table : Table) (classification : Classification) : List (BitVec 64) :=
  flagValues table classification.isaBits

/-- The behaviours of every opcode. -/
def behaviors (table : Table) (classification : Classification) : List (BitVec 64) :=
  flagValues table classification.behaviorBits

/-- A constant array with a value of a flags type for every opcode. -/
def flagsTableItem (name typeName : String) (axis : AxisMap) (values : List (BitVec 64)) : List Tree :=
  let value (bits : BitVec 64) : List Tree :=
    qualified typeName "from_bits_retain" ++ parens [.hexadecimal bits.toNat (flagDigits axis)]
  fixed "pub const" ++ [.name name, .punct ':' .alone] ++
    brackets (.name typeName :: fixed "; NUMBER_OF_OPCODES") ++ fixed "=" ++
    brackets (separated ',' (values.map value)) ++ fixed ";"

/-- A constant array with a bit for every opcode. -/
def membershipItem (name : String) (words : List (BitVec 64)) : List Tree :=
  fixed "pub const" ++ [.name name, .punct ':' .alone] ++ brackets (fixed "u64;" ++ [.decimal words.length]) ++
    fixed "=" ++ brackets (separated ',' (words.map fun word => [.hexadecimal word.toNat 16])) ++ fixed ";"

/-! ### The enumeration -/

/-- The names of the opcodes in the enumeration. -/
def variantNames (table : Table) : List String :=
  table.entries.map fun entry => identText entry.ident

/-- One opcode of the enumeration with its number. -/
def variant (index : Nat) (entry : Entry) : List Tree :=
  let documentation := match entry.instruction? with
    | none => []
    | some instruction =>
      doc ("`" ++ instruction.opcode ++ "` (line " ++ Text.decimal instruction.line ++ ")")
  documentation ++ [.name entry.ident, .punct '=' .alone, .decimal index]

/-- The enumeration. -/
def opcodeItem (table : Table) : List Tree :=
  attributed "allow(non_camel_case_types)" ++
    attributed "derive(Debug, Clone, Copy, PartialEq, Eq, PartialOrd, Ord, Hash)" ++
    attributed "repr(u16)" ++
    fixed "pub enum Opcode" ++
    braces (separated ',' (table.entries.zipIdx.map fun (entry, index) => variant index entry))

def lastCompressedItem (table : Table) : List Tree :=
  fixed "pub const LAST_COMPRESSED_OPCODE: Opcode =" ++ opcodePath table.lastCompressed.ident ++ fixed ";"

def numberOfOpcodesItem (table : Table) : List Tree :=
  fixed "pub const NUMBER_OF_OPCODES: usize =" ++ [.decimal table.numberOfOpcodes] ++ fixed ";"

def opcodeNamesItem (table : Table) : List Tree :=
  stringTable "OP_NAME" (fixed "NUMBER_OF_OPCODES") (table.entries.map (·.mnemonic))

/-- A condition on the number of an opcode, which the generated code calls `index`. -/
inductive IndexCondition where
  | nonzero
  /-- The number is not above the one of the last compressed opcode. -/
  | upToLastCompressed
  | both (first second : IndexCondition)
deriving DecidableEq, Repr

namespace IndexCondition

/-- A condition as code. -/
def trees : IndexCondition → List Tree
  | .nonzero => fixed "index != 0"
  | .upToLastCompressed => fixed "index <= LAST_COMPRESSED_OPCODE as usize"
  | .both first second => first.trees ++ fixed "&&" ++ second.trees

/-- Whether a condition holds of a number, where the last compressed opcode has the number `last`. -/
def holds (last index : Nat) : IndexCondition → Bool
  | .nonzero => index != 0
  | .upToLastCompressed => index ≤ last
  | .both first second => first.holds last index && second.holds last index

/-- The numbers of compressed opcodes. -/
def compressed : IndexCondition :=
  .both .nonzero .upToLastCompressed

end IndexCondition

/-- Whether an opcode is in one of the arrays with a bit for every opcode. -/
def boundaryMethod (documentation name array : String) : List Tree :=
  docLine documentation ++ fixed "pub const fn" ++ [.ident name] ++ fixed "(self) -> bool" ++
    braces (fixed "let index = self as usize;" ++
      parens (.ident array :: fixed "[index / 64] >> (index % 64)") ++ fixed "& 1 != 0")

/-- The methods of the enumeration. -/
def opcodeMethodsItem (table : Table) : List Tree :=
  fixed "impl Opcode" ++
    braces (
      fixed "pub const ALL: [Opcode; NUMBER_OF_OPCODES] =" ++
        brackets (separated ',' (table.entries.map fun entry => opcodePath entry.ident)) ++ fixed ";" ++
      fixed "pub const fn name(self) -> & 'static str" ++ braces (fixed "OP_NAME[self as usize]") ++
      fixed "pub const fn is_compressed(self) -> bool" ++
        braces (fixed "let index = self as usize;" ++ IndexCondition.compressed.trees) ++
      fixed "pub const fn required_isa(self) -> Isa" ++ braces (fixed "REQUIRED_ISA[self as usize]") ++
      fixed "pub const fn attributes(self) -> Attr" ++ braces (fixed "ATTRIBUTES[self as usize]") ++
      boundaryMethod " Whether a pipeline boundary is required before executing this opcode."
        "stop_before" "STOP_BEFORE" ++
      boundaryMethod " Whether a pipeline boundary is required after executing this opcode."
        "stop_after" "STOP_AFTER")

/-! ### Named fields -/

/-- The value of a named field in the word. -/
def fieldValue (range : BitRange) : Expr .u32 :=
  .field range.lo (range.hi - range.lo + 1) 8

/-- The extractor of a named field. -/
def fieldHelper (name : String) (range : BitRange) : List Tree :=
  doc ("Bits " ++ Text.decimal range.lo ++ "..=" ++ Text.decimal range.hi ++ " of an instruction word.") ++
    attributed "inline" ++
    fixed "pub const fn" ++ [.name name] ++ fixed "(word: u32) -> u32" ++ braces (fieldValue range).trees

/-- The extractors of the named fields, if there are any. -/
def fieldsItem? (fields : FieldRegistry) : Option (List Tree) :=
  if fields.isEmpty then none
  else
    docLine " Extractors for the named fields of the instruction description." ++
      attributed "allow(dead_code)" ++
      fixed "pub mod fields" ++ braces (fields.flatMap fun (name, declared) => fieldHelper name declared.range)

/-- The items of the generated list of opcodes. -/
def items (table : Table) (classification : Classification) : List (List Tree) :=
  [ opcodeItem table,
    lastCompressedItem table,
    numberOfOpcodesItem table,
    opcodeNamesItem table,
    flagsItem "Isa" classification.isa,
    flagsItem "Attr" classification.behavior,
    flagsTableItem "REQUIRED_ISA" "Isa" classification.isa (requiredIsa table classification),
    flagsTableItem "ATTRIBUTES" "Attr" classification.behavior (behaviors table classification),
    membershipItem "STOP_BEFORE" (table.membership TokenSet.stopBeforeToken),
    membershipItem "STOP_AFTER" (table.membership TokenSet.stopAfterToken),
    opcodeMethodsItem table ] ++
  (fieldsItem? table.fields).toList

end IsaForge.OpcodeList
