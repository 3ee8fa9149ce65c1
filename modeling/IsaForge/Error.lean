import IsaForge.Grammar.Rule
import IsaForge.Text.Numeral

/-!
Everything that can be wrong with a description or a configuration. An `Error` is a cause; `Error.message` words it and
`Error.line?` says which line of the description it was found on.
-/

namespace IsaForge

/-- The columns of a record. -/
inductive Column where
  | kind
  | opcode
  | assembly
  | attributes
  | bitPattern
  | operands
  | action
deriving DecidableEq, Repr

/-- The name of a column in a message. -/
def Column.label : Column → String
  | .kind => "kind"
  | .opcode => "opcode"
  | .assembly => "assembly template"
  | .attributes => "attributes"
  | .bitPattern => "bit pattern"
  | .operands => "operand list"
  | .action => "action"

/-- The two axes on which an attribute classifies an instruction. -/
inductive Axis where
  | isa
  | behavior
deriving DecidableEq, Repr

/-- The name of an axis in a message. -/
def Axis.label : Axis → String
  | .isa => "ISA"
  | .behavior => "behavior"

/-- What can be wrong with the text of a column. -/
inductive RecordFault where
  /-- The record as a whole cannot be read. -/
  | unreadable (failure : Grammar.Failure)
  /-- The text of one column cannot be read. -/
  | unreadableText (text : String) (failure : Grammar.Failure)
  | indexOutOfRange (digits : String)
  | componentReversed (component : String)
  | componentTooHigh (component : String)
  | zeroWidthField (name : String)
deriving DecidableEq, Repr

def RecordFault.message : RecordFault → String
  | .unreadable failure => failure.message
  | .unreadableText text failure => "\"" ++ text ++ "\" " ++ failure.message
  | .indexOutOfRange digits => "bit index " ++ digits ++ " is out of range"
  | .componentReversed component =>
    "immediate component " ++ component ++ " has its low bit above its high bit"
  | .componentTooHigh component => "immediate component " ++ component ++ " does not fit a 32-bit immediate"
  | .zeroWidthField name => "field `" ++ name ++ "` has zero width"

/-- What can be wrong with an operand list or one of its entries. -/
inductive OperandFault where
  | unreadable (failure : Grammar.Failure)
  | outOfRange (digits : String)
  | literalTooLarge
  | unknownClass (letters : String)
  | undeclaredField (name : String)
  | reversed
  | outsideInstruction (bit bits : Nat)
  | registerTooLarge (largest limit : Nat)
  | tooMany (count limit : Nat)
deriving DecidableEq, Repr

def OperandFault.message : OperandFault → String
  | .unreadable failure => failure.message
  | .outOfRange digits => digits ++ " is out of range"
  | .literalTooLarge => "literal does not fit a register number"
  | .unknownClass letters => "unknown register class `" ++ letters ++ "`"
  | .undeclaredField name => "no bit pattern declares a field named `" ++ name ++ "`"
  | .reversed => "low bit is above high bit"
  | .outsideInstruction bit bits =>
    "bit " ++ Text.decimal bit ++ " is outside a " ++ Text.decimal bits ++ "-bit instruction"
  | .registerTooLarge largest limit =>
    "largest register number " ++ Text.decimal largest ++ " does not fit below " ++ Text.decimal limit
  | .tooMany count limit =>
    Text.decimal count ++ " operands given, at most " ++ Text.decimal limit ++ " allowed"

/-- What can be wrong with a configuration. -/
inductive ConfigFault where
  /-- The text is not the JSON of a configuration. -/
  | undecodable
  | stateType (text : String)
  | registerNames (bank : String) (count limit : Nat)
  | notPlainName (name : String)
  | repeatedName (name : String)
deriving DecidableEq, Repr

def ConfigFault.message : ConfigFault → String
  | .undecodable => "(json)"
  | .stateType text => "state type \"" ++ text ++ "\" is not a Rust type"
  | .registerNames bank count limit =>
    bank ++ " register name table must have between 1 and " ++ Text.decimal limit ++ " entries, got " ++
      Text.decimal count
  | .notPlainName name => "artifact name \"" ++ name ++ "\" must be a plain file name"
  | .repeatedName name => "artifact name \"" ++ name ++ "\" is used twice"

/-- A range of bits, both ends included. -/
structure BitRange where
  hi : Nat
  lo : Nat
deriving DecidableEq, Repr

def BitRange.text (range : BitRange) : String :=
  "[" ++ Text.decimal range.hi ++ ":" ++ Text.decimal range.lo ++ "]"

/-- Why a description or a configuration is refused. -/
inductive Error where
  | malformedRecord (line : Nat) (column : Column) (fault : RecordFault)
  | illegalWidth (line bits : Nat) (pattern : String)
  | fieldRedefinition (line : Nat) (name : String) (range : BitRange) (previousLine : Nat) (previous : BitRange)
  | duplicateOpcode (line : Nat) (opcode : String) (previousLine : Nat)
  | reservedOpcode (line : Nat) (opcode reserved : String)
  | illegalOperand (line : Nat) (specifier : String) (fault : OperandFault)
  | tooManyAttributes (axis : Axis) (count : Nat)
  | unknownPlaceholder (line : Nat) (opcode : String) (column : Column) (placeholder : String)
  | invalidAction (line : Nat) (opcode : String)
  | invalidConfig (fault : ConfigFault)
deriving DecidableEq, Repr

namespace Error

/-- The line of the description that an error is tied to. -/
def line? : Error → Option Nat
  | .malformedRecord line .. => some line
  | .illegalWidth line .. => some line
  | .fieldRedefinition line .. => some line
  | .duplicateOpcode line .. => some line
  | .reservedOpcode line .. => some line
  | .illegalOperand line .. => some line
  | .unknownPlaceholder line .. => some line
  | .invalidAction line .. => some line
  | .tooManyAttributes .. => none
  | .invalidConfig .. => none

/-- The beginning of a message that names a line. -/
def atLine (line : Nat) : String :=
  "line " ++ Text.decimal line ++ ": "

def message : Error → String
  | .malformedRecord line column fault =>
    atLine line ++ "malformed record (" ++ column.label ++ "): " ++ fault.message
  | .illegalWidth line bits pattern =>
    atLine line ++ "illegal instruction width " ++ Text.decimal bits ++ " bits in \"" ++ pattern ++
      "\" (expected 16 or 32)"
  | .fieldRedefinition line name range previousLine previous =>
    atLine line ++ "field `" ++ name ++ "` redefined as " ++ range.text ++ ", previously " ++ previous.text ++
      " on line " ++ Text.decimal previousLine
  | .duplicateOpcode line opcode previousLine =>
    atLine line ++ "opcode `" ++ opcode ++ "` already defined on line " ++ Text.decimal previousLine
  | .reservedOpcode line opcode reserved =>
    atLine line ++ "opcode `" ++ opcode ++ "` names the reserved opcode `" ++ reserved ++ "`"
  | .illegalOperand line specifier fault =>
    atLine line ++ "illegal operand specifier \"" ++ specifier ++ "\": " ++ fault.message
  | .tooManyAttributes axis count =>
    "too many " ++ axis.label ++ " attributes: " ++ Text.decimal count ++
      " distinct tokens, at most 64 fit a bitvector"
  | .unknownPlaceholder line opcode column placeholder =>
    atLine line ++ "`" ++ opcode ++ "` " ++ column.label ++ " uses placeholder `" ++ placeholder ++
      "` but the instruction has no such operand"
  | .invalidAction line opcode =>
    atLine line ++ "action for `" ++ opcode ++ "` is not a valid token stream"
  | .invalidConfig fault => "invalid configuration: " ++ fault.message

end Error

end IsaForge
