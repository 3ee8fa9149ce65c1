import IsaForge.FieldRegistry

/-!
Operands. Every instruction has four register slots, the destination and three sources. An operand list says what is in
them: nothing, a fixed register, or the register whose number stands in a range of bits of the word.
-/

namespace IsaForge

open Grammar (Peg Rule)

/-- The two kinds of registers. -/
inductive RegisterClass where
  | generalPurpose
  | floatingPoint
deriving DecidableEq, Repr

/-- The kind of registers that the letters in front of an operand name. -/
def RegisterClass.ofLetters? (letters : String) : Option RegisterClass :=
  if letters = "x" then some .generalPurpose
  else if letters = "f" || letters = "d" then some .floatingPoint
  else none

/-- The number of a register. -/
abbrev Register := BitVec 8

/-- The number that stands for no register. -/
def noRegister : Register := 255

/-- What is in a register slot. -/
inductive Slot where
  | none
  | literal (register : Register)
  /-- The number in the given bits of the word, plus an offset. -/
  | field (registerClass : RegisterClass) (range : BitRange) (offset : Register)
deriving DecidableEq, Repr

namespace Slot

def isNone : Slot → Bool
  | .none => true
  | .literal _ => false
  | .field .. => false

/-- The kind of register that a slot shows as; a slot without a field shows as a general-purpose one. -/
def registerClass : Slot → RegisterClass
  | .none => .generalPurpose
  | .literal _ => .generalPurpose
  | .field registerClass .. => registerClass

/-- The register that a slot holds in the instruction `word`. -/
def extract (word : Word) : Slot → Register
  | .none => noRegister
  | .literal register => register
  | .field _ range offset => (word.extractLsb' range.lo (range.hi - range.lo + 1)).setWidth 8 + offset

end Slot

/-- Four things, one for each register slot. -/
structure PerSlot (α : Type) where
  rd : α
  rs1 : α
  rs2 : α
  rs3 : α
deriving DecidableEq, Repr

namespace PerSlot

variable {α β : Type}

def toList (slots : PerSlot α) : List α :=
  [slots.rd, slots.rs1, slots.rs2, slots.rs3]

def map (f : α → β) (slots : PerSlot α) : PerSlot β :=
  ⟨f slots.rd, f slots.rs1, f slots.rs2, f slots.rs3⟩

/-- The names of the slots. -/
def names : PerSlot String :=
  ⟨"rd", "rs1", "rs2", "rs3"⟩

/-- How many slots there are. -/
def count : Nat := 4

/-- At most four things, the missing ones at the end replaced by `filler`. -/
def ofList? (filler : α) : List α → Option (PerSlot α)
  | [] => some ⟨filler, filler, filler, filler⟩
  | [a] => some ⟨a, filler, filler, filler⟩
  | [a, b] => some ⟨a, b, filler, filler⟩
  | [a, b, c] => some ⟨a, b, c, filler⟩
  | [a, b, c, d] => some ⟨a, b, c, d⟩
  | _ => none

end PerSlot

/-- Which bits hold a register number: a range, or the bits of a named field. -/
inductive Selector where
  | range (hi : String) (lo? : Option String)
  | named (name : String)
deriving DecidableEq, Repr

def Selector.text : Selector → String
  | .range hi none => hi
  | .range hi (some lo) => hi ++ ":" ++ lo
  | .named name => name

/-- An entry of an operand list, as written. -/
inductive Operand where
  | absent
  | constant (digits : String)
  | field (letters : String) (selector : Selector) (bias? : Option String)
deriving DecidableEq, Repr

def Operand.text : Operand → String
  | .absent => "-"
  | .constant digits => digits
  | .field letters selector none => letters ++ "[" ++ selector.text ++ "]"
  | .field letters selector (some bias) => letters ++ "[" ++ selector.text ++ "]+" ++ bias

namespace Operand

/-! ### The grammar of an operand list -/

def noOperand : Peg Rule Operand :=
  .rule .noOperand .spaced (.map (fun _ => .absent) (.exactly '-'))

def constantNumber : Peg Rule Operand :=
  .rule .constant .sealed
    (.map (fun digits => .constant (String.ofList digits)) (.several (.char Char.isDigit)))

def bitRange : Peg Rule Selector :=
  .rule .bitRange .joined
    (.map (fun (hi, lo?) => .range hi lo?)
      (.seq Grammar.number (.optional (.before (.exactly ':') Grammar.number))))

def letters : Peg Rule String :=
  .rule .registerClass .sealed (.map String.ofList (.several (.char Char.isAlpha)))

def bias : Peg Rule String :=
  .rule .bias .joined (.before (.exactly '+') Grammar.number)

def registerField : Peg Rule Operand :=
  .rule .registerField .joined
    (.map (fun (letters, selector, bias?) => .field letters selector bias?)
      (.seq letters
        (.before (.exactly '[')
          (.seq (.choice bitRange (.map .named Grammar.identifier))
            (.before (.exactly ']') (.optional bias))))))

/-- A whole operand list. -/
def operandList : Peg Rule (List Operand) :=
  let operand : Peg Rule Operand := .choice noOperand (.choice constantNumber registerField)
  .rule .operandList .spaced
    (.before .start
      (.after
        (.map (fun (first, others) => first :: others)
          (.seq operand (.many (.before (.exactly ',') operand))))
        Grammar.finish))

/-! ### Resolving -/

/-- A number of an operand. -/
def index (digits : String) : Except OperandFault Nat :=
  match Text.readIndex? digits with
  | some n => .ok n
  | none => .error (.outOfRange digits)

/-- The bits that a selector names. -/
def selectedRange (registry : FieldRegistry) : Selector → Except OperandFault BitRange
  | .range hi lo? => do
    let hi ← index hi
    let lo ← match lo? with
      | none => pure hi
      | some digits => index digits
    return ⟨hi, lo⟩
  | .named name =>
    match registry.find? name with
    | some declared => .ok declared.range
    | none => .error (.undeclaredField name)

/-- The largest number that a field of the given range and bias can give. -/
def largestRegister (range : BitRange) (bias : Nat) : Nat :=
  1 <<< (range.hi - range.lo + 1) - 1 + bias

/-- What an operand puts into its slot, in an instruction of the given width. -/
def slot (width : Width) (registry : FieldRegistry) : Operand → Except OperandFault Slot
  | .absent => .ok .none
  | .constant digits => do
    let value ← index digits
    if noRegister.toNat ≤ value then throw .literalTooLarge
    return .literal (BitVec.ofNat 8 value)
  | .field letters selector bias? => do
    let some registerClass := RegisterClass.ofLetters? letters | throw (.unknownClass letters)
    let range ← selectedRange registry selector
    if range.hi < range.lo then throw .reversed
    if width.bits ≤ range.hi then throw (.outsideInstruction range.hi width.bits)
    let bias ← match bias? with
      | none => pure 0
      | some digits => index digits
    let largest := largestRegister range bias
    if noRegister.toNat ≤ largest then throw (.registerTooLarge largest noRegister.toNat)
    return .field registerClass range (BitVec.ofNat 8 bias)

/-- Resolve operands in order, up to the first that is illegal. -/
def slotsOf (line : Nat) (width : Width) (registry : FieldRegistry) : List Operand → Except Error (List Slot)
  | [] => .ok []
  | operand :: rest =>
    match operand.slot width registry with
    | .error fault => .error (.illegalOperand line operand.text fault)
    | .ok slot =>
      match slotsOf line width registry rest with
      | .error e => .error e
      | .ok slots => .ok (slot :: slots)

/-- Resolve the operand list of the record on line `line` into the four slots. -/
def resolve (line : Nat) (list : String) (width : Width) (registry : FieldRegistry) :
    Except Error (PerSlot Slot) :=
  match Grammar.readAll operandList list.toList with
  | .error failure => .error (.illegalOperand line list (.unreadable failure))
  | .ok operands =>
    match slotsOf line width registry operands with
    | .error e => .error e
    | .ok slots =>
      match PerSlot.ofList? .none slots with
      | some slots => .ok slots
      | none => .error (.illegalOperand line list (.tooMany slots.length PerSlot.count))

end Operand

end IsaForge
