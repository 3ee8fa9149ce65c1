import IsaForge.Layout
import IsaForge.Proofs.Reading

/-!
What a bit pattern means, cell by cell. A pattern is a row of pieces, the most significant one first, and a piece covers
as many cells as it is wide; the position of a piece is the number of cells to the right of it. `Pattern.slices` and
`Pattern.fields` read the plan of an immediate and the named fields off such a row.

The fixed bits, the slices, the named fields and the bits that do not matter divide the cells of a row among them
(`partition`), and slices and fields are listed from the lowest one up.
-/

namespace IsaForge

open Text (numeralValue)

/-- A part of a bit pattern that is placed as a whole. -/
inductive Piece where
  | fixed (bit : Bool)
  | free
  | slice (range : BitRange) (signed : Bool)
  | field (name : String) (width : Nat)
deriving DecidableEq, Repr

namespace Piece

/-- How many cells a piece covers. -/
def width : Piece → Nat
  | .fixed _ => 1
  | .free => 1
  | .slice range _ => range.hi - range.lo + 1
  | .field _ width => width

/-- A slice keeps within a 32-bit immediate, and a field is not empty. -/
def Legal : Piece → Prop
  | .fixed _ => True
  | .free => True
  | .slice range _ => range.lo ≤ range.hi ∧ range.hi ≤ 31
  | .field _ width => 1 ≤ width

instance : DecidablePred Legal
  | .fixed _ => inferInstanceAs (Decidable True)
  | .free => inferInstanceAs (Decidable True)
  | .slice _ _ => inferInstanceAs (Decidable (_ ∧ _))
  | .field _ _ => inferInstanceAs (Decidable (_ ≤ _))

end Piece

/-- The bits of the immediate that a component stands for. -/
def Component.range (component : Component) : BitRange :=
  ⟨numeralValue component.hi, numeralValue (component.lo?.getD component.hi)⟩

/-- The pieces of a token. -/
def PatternToken.pieces : PatternToken → List Piece
  | .literal bits => bits.map .fixed
  | .filler count => List.replicate count .free
  | .immediate signed lead others =>
    .slice lead.range signed :: others.map fun component => .slice component.range false
  | .field name width => [.field name (numeralValue width)]

namespace Pattern

/-- The pieces of a pattern. -/
def pieces (tokens : List PatternToken) : List Piece :=
  tokens.flatMap PatternToken.pieces

/-- The cells of a row of pieces, each labelled by its piece. -/
def cells (row : List Piece) : List Piece :=
  row.flatMap fun piece => List.replicate piece.width piece

/-- The cell of bit `k`. -/
def cellAt (row : List Piece) (k : Nat) : Option Piece :=
  (cells row).reverse[k]?

/-- The pieces of a row from the lowest one up, each with the position of its lowest cell. -/
def located : List Piece → List (Nat × Piece)
  | [] => []
  | piece :: below => located below ++ [((cells below).length, piece)]

/-- The slice that a piece at the given position is. -/
def sliceOf? : Nat × Piece → Option Slice
  | (position, .slice range signed) => some ⟨position, range.hi - range.lo + 1, range.lo, signed⟩
  | (_, .fixed _) | (_, .free) | (_, .field ..) => none

/-- The named field that a piece at the given position is. -/
def fieldOf? : Nat × Piece → Option NamedField
  | (position, .field name width) => some ⟨name, position, width⟩
  | (_, .fixed _) | (_, .free) | (_, .slice ..) => none

/-- The slices of a row, the lowest one first. -/
def slices (row : List Piece) : List Slice :=
  (located row).filterMap sliceOf?

/-- The named fields of a row, the lowest one first. -/
def fields (row : List Piece) : List NamedField :=
  (located row).filterMap fieldOf?

/-! ### Rows -/

@[simp] theorem cells_nil : cells [] = [] := rfl

@[simp] theorem cells_cons (piece : Piece) (row : List Piece) :
    cells (piece :: row) = List.replicate piece.width piece ++ cells row := rfl

@[simp] theorem cells_append (above below : List Piece) :
    cells (above ++ below) = cells above ++ cells below :=
  List.flatMap_append

theorem pieces_append (first second : List PatternToken) :
    pieces (first ++ second) = pieces first ++ pieces second :=
  List.flatMap_append

theorem pieces_singleton (token : PatternToken) : pieces [token] = token.pieces :=
  List.flatMap_singleton _ _

theorem length_cells (row : List Piece) : (cells row).length = (row.map Piece.width).sum := by
  induction row with
  | nil => rfl
  | cons piece row ih => simp [ih]

theorem cellAt_append (above below : List Piece) (k : Nat) :
    cellAt (above ++ below) k =
      if k < (cells below).length then cellAt below k
      else cellAt above (k - (cells below).length) := by
  simp only [cellAt, cells_append, List.reverse_append, List.getElem?_append, List.length_reverse]

theorem cellAt_eq_none {row : List Piece} {k : Nat} (h : (cells row).length ≤ k) :
    cellAt row k = none :=
  List.getElem?_eq_none (by rwa [List.length_reverse])

theorem cellAt_isSome {row : List Piece} {k : Nat} (h : k < (cells row).length) :
    ∃ piece, cellAt row k = some piece :=
  ⟨_, List.getElem?_eq_getElem (by rwa [List.length_reverse])⟩

/-- Every cell of a single piece is that piece. -/
theorem cellAt_singleton (piece : Piece) (k : Nat) :
    cellAt [piece] k = if k < piece.width then some piece else none := by
  simp [cellAt, List.getElem?_replicate]

theorem mem_of_cellAt {row : List Piece} {piece : Piece} {k : Nat}
    (h : cellAt row k = some piece) : piece ∈ row := by
  have hcell : piece ∈ cells row := List.mem_reverse.mp (List.mem_of_getElem? h)
  obtain ⟨owner, howner, hpiece⟩ := List.mem_flatMap.mp hcell
  rw [List.eq_of_mem_replicate hpiece]
  exact howner

/-! ### Positions -/

theorem mem_of_mem_located {row : List Piece} {entry : Nat × Piece} (h : entry ∈ located row) :
    entry.2 ∈ row ∧ entry.1 + entry.2.width ≤ (cells row).length := by
  induction row with
  | nil => cases h
  | cons piece below ih =>
    simp only [cells_cons, List.length_append, List.length_replicate]
    rcases List.mem_append.mp h with h | h
    · have := ih h
      exact ⟨List.mem_cons_of_mem _ this.1, by omega⟩
    · cases List.mem_singleton.mp h
      exact ⟨List.mem_cons_self, by dsimp only; omega⟩

/-- Each piece ends where a higher one begins, or below. -/
theorem pairwise_located (row : List Piece) :
    (located row).Pairwise fun a b => a.1 + a.2.width ≤ b.1 := by
  induction row with
  | nil => exact .nil
  | cons piece below ih =>
    refine List.pairwise_append.mpr ⟨ih, List.pairwise_singleton _ _, ?_⟩
    intro entry hentry top htop
    cases List.mem_singleton.mp htop
    exact (mem_of_mem_located hentry).2

/-- Bit `k` is covered by the one piece that its cell belongs to. -/
theorem countP_located (accepts : Piece → Bool) (row : List Piece) (k : Nat) :
    (located row).countP (fun entry =>
        entry.1 ≤ k && k < entry.1 + entry.2.width && accepts entry.2) =
      ((cellAt row k).any accepts).toNat := by
  induction row with
  | nil => rfl
  | cons piece below ih =>
    rw [located, List.countP_append, List.countP_singleton, ← List.singleton_append, cellAt_append,
      cellAt_singleton, ih]
    by_cases hk : k < (cells below).length
    · have h₁ : ¬ (cells below).length ≤ k := by omega
      simp [hk, h₁]
    · rw [if_neg hk, cellAt_eq_none (by omega)]
      by_cases hw : k - (cells below).length < piece.width
      · have h₁ : (cells below).length ≤ k := by omega
        have h₂ : k < (cells below).length + piece.width := by omega
        cases h : accepts piece <;> simp [h, h₁, h₂, hw]
      · have h₂ : ¬ k < (cells below).length + piece.width := by omega
        simp [h₂, hw]

end Pattern

/-- Whether a slice is read from bit `k` of the word. -/
def Slice.covers (k : Nat) (slice : Slice) : Bool :=
  slice.position ≤ k && k < slice.position + slice.width

/-- Whether a named field holds bit `k` of the word. -/
def NamedField.covers (k : Nat) (field : NamedField) : Bool :=
  field.position ≤ k && k < field.position + field.width

namespace Piece

def isFixed : Piece → Bool
  | .fixed _ => true
  | .free | .slice .. | .field .. => false

def isFree : Piece → Bool
  | .free => true
  | .fixed _ | .slice .. | .field .. => false

def isSlice : Piece → Bool
  | .slice .. => true
  | .fixed _ | .free | .field .. => false

def isField : Piece → Bool
  | .field .. => true
  | .fixed _ | .free | .slice .. => false

theorem any_isFixed (cell? : Option Piece) :
    cell?.any isFixed = true ↔ ∃ bit, cell? = some (.fixed bit) := by
  rcases cell? with _ | piece
  · simp
  · cases piece <;> simp [isFixed]

theorem any_isFree (cell? : Option Piece) : cell?.any isFree = decide (cell? = some .free) := by
  rcases cell? with _ | piece
  · rfl
  · cases piece <;> simp [isFree]

end Piece

namespace Pattern

/-! ### Slices and named fields of a row -/

theorem countP_slices (row : List Piece) (k : Nat) :
    (slices row).countP (Slice.covers k) = ((cellAt row k).any Piece.isSlice).toNat := by
  rw [← countP_located, slices, List.countP_filterMap]
  congr 1
  funext ⟨position, piece⟩
  cases piece with
  | slice _ _ => exact (Bool.and_true _).symm
  | fixed _ | free | field _ _ => exact (Bool.and_false _).symm

theorem countP_fields (row : List Piece) (k : Nat) :
    (fields row).countP (NamedField.covers k) = ((cellAt row k).any Piece.isField).toNat := by
  rw [← countP_located, fields, List.countP_filterMap]
  congr 1
  funext ⟨position, piece⟩
  cases piece with
  | field _ _ => exact (Bool.and_true _).symm
  | fixed _ | free | slice _ _ => exact (Bool.and_false _).symm

/-- Every bit of the row belongs to exactly one fixed bit, slice, named field or bit that does not matter, and no other
bit does. -/
theorem partition (row : List Piece) (k : Nat) :
    ((cellAt row k).any Piece.isFixed).toNat + (slices row).countP (Slice.covers k) +
        (fields row).countP (NamedField.covers k) + ((cellAt row k).any Piece.isFree).toNat =
      if k < (cells row).length then 1 else 0 := by
  rw [countP_slices, countP_fields]
  split
  · next hk =>
    obtain ⟨piece, hpiece⟩ := cellAt_isSome hk
    rw [hpiece]
    cases piece <;> rfl
  · next hk =>
    rw [cellAt_eq_none (Nat.le_of_not_lt hk)]
    rfl

theorem pairwise_slices (row : List Piece) :
    (slices row).Pairwise fun a b => a.position + a.width ≤ b.position := by
  refine (pairwise_located row).filterMap _ ?_
  rintro ⟨p, a⟩ ⟨q, b⟩ h s hs t ht
  cases a <;> cases hs
  cases b <;> cases ht
  exact h

theorem pairwise_fields (row : List Piece) :
    (fields row).Pairwise fun a b => a.position + a.width ≤ b.position := by
  refine (pairwise_located row).filterMap _ ?_
  rintro ⟨p, a⟩ ⟨q, b⟩ h s hs t ht
  cases a <;> cases hs
  cases b <;> cases ht
  exact h

/-- A slice of a row of legal pieces is not empty, and it lies within the row and within a 32-bit immediate. -/
theorem slice_bounds {row : List Piece} (hlegal : ∀ piece ∈ row, piece.Legal) {slice : Slice}
    (h : slice ∈ slices row) :
    0 < slice.width ∧ slice.position + slice.width ≤ (cells row).length ∧
      slice.shift + slice.width ≤ 32 := by
  obtain ⟨⟨position, piece⟩, hentry, hslice⟩ := List.mem_filterMap.mp h
  obtain ⟨hmem, hend⟩ := mem_of_mem_located hentry
  cases piece <;> cases hslice
  obtain ⟨hlo, hhi⟩ := hlegal _ hmem
  exact ⟨Nat.succ_pos _, hend, by dsimp only; omega⟩

theorem field_bounds {row : List Piece} (hlegal : ∀ piece ∈ row, piece.Legal) {field : NamedField}
    (h : field ∈ fields row) :
    0 < field.width ∧ field.position + field.width ≤ (cells row).length := by
  obtain ⟨⟨position, piece⟩, hentry, hfield⟩ := List.mem_filterMap.mp h
  obtain ⟨hmem, hend⟩ := mem_of_mem_located hentry
  cases piece <;> cases hfield
  exact ⟨hlegal _ hmem, hend⟩

theorem slices_cons (piece : Piece) (row : List Piece) :
    slices (piece :: row) = slices row ++ (sliceOf? ((cells row).length, piece)).toList := by
  rw [slices, located, List.filterMap_append, slices]
  cases h : sliceOf? ((cells row).length, piece) <;> simp [h]

theorem fields_cons (piece : Piece) (row : List Piece) :
    fields (piece :: row) = fields row ++ (fieldOf? ((cells row).length, piece)).toList := by
  rw [fields, located, List.filterMap_append, fields]
  cases h : fieldOf? ((cells row).length, piece) <;> simp [h]

theorem slices_append {above : List Piece} (h : ∀ piece ∈ above, piece.isSlice = false)
    (row : List Piece) : slices (above ++ row) = slices row := by
  induction above with
  | nil => rfl
  | cons piece above ih =>
    rw [List.cons_append, slices_cons, ih fun q hq => h q (List.mem_cons_of_mem _ hq)]
    have := h piece List.mem_cons_self
    cases piece <;> simp [Piece.isSlice, sliceOf?] at this ⊢

theorem fields_append {above : List Piece} (h : ∀ piece ∈ above, piece.isField = false)
    (row : List Piece) : fields (above ++ row) = fields row := by
  induction above with
  | nil => rfl
  | cons piece above ih =>
    rw [List.cons_append, fields_cons, ih fun q hq => h q (List.mem_cons_of_mem _ hq)]
    have := h piece List.mem_cons_self
    cases piece <;> simp [Piece.isField, fieldOf?] at this ⊢

/-! ### Fixed bits of a row -/

theorem cells_fixed (bits : List Bool) : cells (bits.map .fixed) = bits.map .fixed := by
  induction bits with
  | nil => rfl
  | cons bit bits ih => simp [ih, Piece.width]

theorem cells_free (count : Nat) : cells (List.replicate count .free) = List.replicate count .free := by
  induction count with
  | zero => rfl
  | succ count ih => simp [List.replicate_succ, ih, Piece.width]

/-- Pieces that fix no bit leave the fixed bits below them as they are. -/
theorem cellAt_append_fixed_iff {above : List Piece} (h : ∀ piece ∈ above, piece.isFixed = false)
    (row : List Piece) (k : Nat) (bit : Bool) :
    cellAt (above ++ row) k = some (.fixed bit) ↔ cellAt row k = some (.fixed bit) := by
  rw [cellAt_append]
  split
  · rfl
  · next hk =>
    rw [cellAt_eq_none (Nat.le_of_not_lt hk)]
    refine ⟨fun hcell => ?_, nofun⟩
    have := h _ (mem_of_cellAt hcell)
    contradiction

end Pattern

end IsaForge
