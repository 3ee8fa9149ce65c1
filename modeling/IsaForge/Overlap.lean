import IsaForge.Table

/-!
Overlapping instructions: two instructions of a table that can accept the same word, of which decoding only ever finds the
earlier one.
-/

namespace IsaForge

/-- How two instructions overlap. -/
inductive OverlapKind where
  /-- The earlier instruction accepts every word that the later one does. -/
  | shadowed
  /-- Some words are accepted by both, and neither one's fixed bits are among the other's. -/
  | ambiguous
  /-- A compressed instruction accepts the low half of some words of a standard one. -/
  | lowHalf
deriving DecidableEq, Repr

/-- Two overlapping instructions. -/
structure Overlap where
  earlier : Instruction
  later : Instruction
  kind : OverlapKind
deriving DecidableEq, Repr

namespace Overlap

/-- An instruction and its line. -/
def place (instruction : Instruction) : String :=
  "`" ++ instruction.opcode ++ "` (line " ++ Text.decimal instruction.line ++ ")"

/-- The warning for an overlap. -/
def text (overlap : Overlap) : String :=
  let earlier := place overlap.earlier
  let later := place overlap.later
  match overlap.kind with
  | .shadowed => later ++ " is unreachable: " ++ earlier ++ " matches every word it does"
  | .ambiguous => earlier ++ " and " ++ later ++ " overlap; the first one wins"
  | .lowHalf =>
    earlier ++ " matches the low half of some " ++ later ++ " words and decodes them first"

/-- How an instruction overlaps a later one, if it does. One whose fixed bits include those of the later one is a
special case of it, and is no overlap. -/
def kind? (earlier later : Instruction) : Option OverlapKind :=
  if (earlier.matchValue ^^^ later.matchValue) &&& (earlier.mask &&& later.mask) ≠ 0 then none
  else if earlier.width ≠ later.width then some .lowHalf
  else if earlier.mask &&& ~~~later.mask = 0 then some .shadowed
  else if later.mask &&& ~~~earlier.mask = 0 then none
  else some .ambiguous

/-- The overlaps of the instructions in a list with those after them. -/
def among : List Instruction → List Overlap
  | [] => []
  | earlier :: rest =>
    rest.filterMap (fun later => (kind? earlier later).map fun kind => ⟨earlier, later, kind⟩) ++ among rest

end Overlap

/-- The overlaps of a table. -/
def Table.overlaps (table : Table) : List Overlap :=
  Overlap.among table.instructions

end IsaForge
