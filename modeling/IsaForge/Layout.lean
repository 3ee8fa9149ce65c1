import IsaForge.Error
import IsaForge.Immediate
import IsaForge.Pattern

/-!
The layout of a bit pattern: how wide the instruction is, which bits are fixed and to what, how its immediate is put
together, and where its named fields are. `Layout.resolve` places the tokens of a pattern from the lowest bit up.
-/

namespace IsaForge

/-- The encoded size of an instruction. -/
inductive Width where
  | compressed
  | standard
deriving DecidableEq, Repr

namespace Width

def bytes : Width → Nat
  | .compressed => 2
  | .standard => 4

def bits (width : Width) : Nat := width.bytes * 8

def ofBits? : Nat → Option Width
  | 16 => some .compressed
  | 32 => some .standard
  | _ => none

end Width

/-- A named field of a bit pattern. -/
structure NamedField where
  name : String
  position : Nat
  width : Nat
deriving DecidableEq, Repr

/-- The range of bits that a field covers. -/
def NamedField.range (field : NamedField) : BitRange :=
  ⟨field.position + field.width - 1, field.position⟩

/-- A bit pattern, laid out. -/
structure Layout where
  matchValue : Word
  mask : Word
  width : Width
  immediate : Option Immediate
  fields : List NamedField
deriving DecidableEq, Repr

namespace Layout

/-- The highest position that is counted; a pattern is never wider. -/
def positionLimit : Nat := 0xffffffff

/-- What the tokens placed so far, from the lowest bit up, amount to. -/
structure Placement where
  position : Nat := 0
  matchValue : Word := 0
  mask : Word := 0
  slices : List Slice := []
  fields : List NamedField := []

namespace Placement

/-- Move up by `width` bits. -/
def advance (placement : Placement) (width : Nat) : Placement :=
  { placement with position := min (placement.position + width) positionLimit }

/-- The number that a run of bits stands for, its most significant bit first. -/
def bitsValue (bits : List Bool) : Nat :=
  bits.foldl (fun value bit => 2 * value + bit.toNat) 0

/-- Place fixed bits. Bits above the word are only counted: such a pattern is too wide for any instruction. -/
def literal (placement : Placement) (bits : List Bool) : Placement :=
  let placed : Placement :=
    if placement.position + bits.length ≤ 32 then
      { placement with
        matchValue := placement.matchValue ||| BitVec.ofNat 32 (bitsValue bits <<< placement.position)
        mask := placement.mask ||| BitVec.ofNat 32 ((1 <<< bits.length - 1) <<< placement.position) }
    else placement
  placed.advance bits.length

/-- Place a slice of an immediate. -/
def slice (placement : Placement) (range : BitRange) (signExtend : Bool) : Placement :=
  let width := range.hi - range.lo + 1
  let slice : Slice := { position := placement.position, width, shift := range.lo, signExtend }
  advance { placement with slices := placement.slices ++ [slice] } width

/-- Place a named field. -/
def field (placement : Placement) (name : String) (width : Nat) : Placement :=
  advance { placement with fields := placement.fields ++ [⟨name, placement.position, width⟩] } width

end Placement

/-- A number of a bit pattern. -/
def index (digits : String) : Except RecordFault Nat :=
  match Text.readIndex? digits with
  | some n => .ok n
  | none => .error (.indexOutOfRange digits)

/-- The bits of the immediate that a component names. Disassembly shows an immediate as a 32-bit word, so no bit above
that is allowed. -/
def componentRange (component : Component) : Except RecordFault BitRange := do
  let hi ← index component.hi
  let lo ← match component.lo? with
    | none => pure hi
    | some digits => index digits
  if hi < lo then throw (.componentReversed component.text)
  if 31 < hi then throw (.componentTooHigh component.text)
  return ⟨hi, lo⟩

/-- Place one token. Every component of an immediate is checked before the first is placed; they are placed from the
lowest one up, and the leading one carries the sign. -/
def place (placement : Placement) : PatternToken → Except RecordFault Placement
  | .literal bits => return placement.literal bits
  | .filler count => return placement.advance count
  | .immediate signed lead others => do
    let lead ← componentRange lead
    let others ← others.mapM componentRange
    let below := others.reverse.foldl (fun placement range => placement.slice range false) placement
    return below.slice lead signed
  | .field name digits => do
    let width ← index digits
    if width = 0 then throw (.zeroWidthField name)
    return placement.field name width

/-- Place tokens in the given order. -/
def placeAll (placement : Placement) : List PatternToken → Except RecordFault Placement
  | [] => .ok placement
  | token :: rest =>
    match place placement token with
    | .error fault => .error fault
    | .ok placement => placeAll placement rest

/-- The immediate plan that the placed slices form. -/
def immediateOf (slices : List Slice) : Option Immediate :=
  if slices.isEmpty then none else some ⟨slices, slices.any (·.signExtend)⟩

/-- Lay out the bit pattern of the record on line `line`. -/
def resolve (line : Nat) (pattern : String) : Except Error Layout :=
  match Pattern.parse pattern with
  | .error failure => .error (.malformedRecord line .bitPattern (.unreadableText pattern failure))
  | .ok tokens =>
    match placeAll {} tokens.reverse with
    | .error fault => .error (.malformedRecord line .bitPattern fault)
    | .ok placement =>
      match Width.ofBits? placement.position with
      | none => .error (.illegalWidth line placement.position pattern)
      | some width => .ok {
          matchValue := placement.matchValue
          mask := placement.mask
          width
          immediate := immediateOf placement.slices
          fields := placement.fields }

end Layout

end IsaForge
