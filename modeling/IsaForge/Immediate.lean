/-!
Words and immediates. An immediate is put together from slices of the instruction word; `Immediate.reconstruct` reads
them and joins them into a 64-bit value.
-/

namespace IsaForge

/-- An instruction word. A compressed instruction occupies its low half. -/
abbrev Word := BitVec 32

/-- One contiguous slice of the instruction word that lands somewhere in an immediate. -/
structure Slice where
  /-- The lowest bit of the slice in the word. -/
  position : Nat
  width : Nat
  /-- Where the lowest bit of the slice ends up in the immediate. -/
  shift : Nat
  signExtend : Bool
deriving DecidableEq, Repr

namespace Slice

/-- The highest bit of a slice in the word. -/
def sourceHi (slice : Slice) : Nat := slice.position + slice.width - 1

/-- The lowest bit of a slice in the word. -/
def sourceLo (slice : Slice) : Nat := slice.position

/-- The part of the immediate that a slice of `word` gives. -/
def extract (slice : Slice) (word : Word) : BitVec 64 :=
  let bits : BitVec slice.width := word.extractLsb' slice.position slice.width
  let value : BitVec 64 := if slice.signExtend then bits.signExtend 64 else bits.setWidth 64
  value <<< slice.shift

end Slice

/-- How an immediate is put together, the lowest slice of the word first. -/
structure Immediate where
  slices : List Slice
  signed : Bool
deriving DecidableEq, Repr

/-- The immediate in `word`. -/
def Immediate.reconstruct (immediate : Immediate) (word : Word) : BitVec 64 :=
  immediate.slices.foldl (fun value slice => value ||| slice.extract word) 0

end IsaForge
