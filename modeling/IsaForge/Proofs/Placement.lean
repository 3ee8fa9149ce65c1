import IsaForge.Proofs.Cells

/-!
Placing the tokens of a bit pattern. `Placement.Represents` says that what was placed so far amounts to a row of pieces.
Placing one more token puts its pieces on top of the row (`Represents.put`), and so does placing a list of tokens
(`foldl_put_represents`), as long as the row fits a word; a row that does not is counted all the same
(`foldl_put_position`), so that its width is refused in the end. `Layout.Realizes` is what a layout says of a row, and
`resolve_eq_ok_iff` when there is one.
-/

namespace IsaForge

open Pattern Text

/-! ### Results -/

theorem bind_eq_ok_iff {ε α β : Type} {x : Except ε α} {f : α → Except ε β} {b : β} :
    (x >>= f) = .ok b ↔ ∃ a, x = .ok a ∧ f a = .ok b := by
  cases x with
  | error e => exact ⟨nofun, nofun⟩
  | ok a => exact ⟨fun h => ⟨a, rfl, h⟩, fun ⟨_, ha, h⟩ => by cases ha; exact h⟩

theorem bind_eq_error_iff {ε α β : Type} {x : Except ε α} {f : α → Except ε β} {e : ε} :
    (x >>= f) = .error e ↔ x = .error e ∨ ∃ a, x = .ok a ∧ f a = .error e := by
  cases x with
  | error e' => exact ⟨fun h => .inl (by cases h; rfl), fun h => h.elim (fun h => by cases h; rfl) nofun⟩
  | ok a => exact ⟨fun h => .inr ⟨a, rfl, h⟩, fun h => h.elim nofun fun ⟨_, ha, h⟩ => by cases ha; exact h⟩

theorem check_eq_ok_iff {ε α β : Type} {p : Prop} [Decidable p] {e : ε} {f : β → Except ε α}
    {x : Except ε α} {a : α} :
    (if p then (throw e : Except ε β) >>= f else x) = .ok a ↔ ¬ p ∧ x = .ok a := by
  by_cases h : p
  · rw [if_pos h]
    exact ⟨nofun, fun h' => absurd h h'.1⟩
  · rw [if_neg h, and_iff_right h]

theorem exists_ok_of_any {ε α : Type} {x : Except ε α} {p : α → Bool}
    (h : x.toOption.any p = true) : ∃ a, x = .ok a ∧ p a = true := by
  cases x with
  | error e => cases h
  | ok a => exact ⟨a, rfl, h⟩

theorem mapM_eq_ok_iff {ε α β : Type} {f : α → Except ε β} {g : α → β} {legal : α → Prop}
    (hf : ∀ {a b}, f a = .ok b ↔ legal a ∧ b = g a) {as : List α} {bs : List β} :
    as.mapM f = .ok bs ↔ (∀ a ∈ as, legal a) ∧ bs = as.map g := by
  induction as generalizing bs with
  | nil =>
    rw [List.mapM_nil]
    exact ⟨fun h => ⟨nofun, by cases h; rfl⟩, fun ⟨_, h⟩ => h ▸ rfl⟩
  | cons a as ih =>
    rw [List.mapM_cons]
    simp only [bind_eq_ok_iff, hf, ih, List.forall_mem_cons, List.map_cons]
    constructor
    · rintro ⟨b, ⟨ha, rfl⟩, rest, ⟨has, rfl⟩, h⟩
      cases h
      exact ⟨⟨ha, has⟩, rfl⟩
    · rintro ⟨⟨ha, has⟩, rfl⟩
      exact ⟨_, ⟨ha, rfl⟩, _, ⟨has, rfl⟩, rfl⟩

namespace Layout

/-- What was placed so far amounts to the given row of pieces. -/
structure Placement.Represents (placement : Placement) (row : List Piece) : Prop where
  position : placement.position = (cells row).length
  mask (k : Nat) : placement.mask.getLsbD k = true ↔ ∃ bit, cellAt row k = some (.fixed bit)
  matchValue (k : Nat) : placement.matchValue.getLsbD k = true ↔ cellAt row k = some (.fixed true)
  slices : placement.slices = Pattern.slices row
  fields : placement.fields = Pattern.fields row

namespace Placement

theorem represents_nil : Represents {} [] where
  position := rfl
  mask k := by simp [cellAt]
  matchValue k := by simp [cellAt]
  slices := rfl
  fields := rfl

theorem position_advance (placement : Placement) (width : Nat) :
    (placement.advance width).position = min (placement.position + width) positionLimit := rfl

theorem position_advance_of_le {placement : Placement} {width : Nat}
    (h : placement.position + width ≤ 32) :
    (placement.advance width).position = placement.position + width :=
  Nat.min_eq_left (Nat.le_trans h (by decide))

/-! ### Fixed bits -/

theorem bitsValue_append_singleton (bits : List Bool) (bit : Bool) :
    bitsValue (bits ++ [bit]) = 2 * bitsValue bits + bit.toNat := by
  simp [bitsValue]

/-- Bit `j` of the number that a run of bits stands for is the `j`th of them from the right. -/
theorem testBit_bitsValue (bits : List Bool) (j : Nat) :
    (bitsValue bits).testBit j = (bits.reverse[j]?).getD false := by
  induction bits using List.reverseRecOn generalizing j with
  | nil => simp [bitsValue]
  | append_singleton bits bit ih =>
    rw [bitsValue_append_singleton, List.reverse_append]
    cases j with
    | zero => cases bit <;> simp [Nat.testBit_zero]
    | succ j =>
      have hdiv : (2 * bitsValue bits + bit.toNat) / 2 = bitsValue bits := by
        have := bit.toNat_le
        omega
      rw [Nat.testBit_succ, hdiv, ih]
      rfl

theorem getLsbD_placed_mask {position width : Nat} (h : position + width ≤ 32) (k : Nat) :
    (BitVec.ofNat 32 ((1 <<< width - 1) <<< position)).getLsbD k = true ↔
      position ≤ k ∧ k < position + width := by
  simp only [BitVec.getLsbD_ofNat, Nat.one_shiftLeft, Nat.testBit_shiftLeft,
    Nat.testBit_two_pow_sub_one, Bool.and_eq_true, decide_eq_true_eq]
  omega

theorem getLsbD_placed_bits {position : Nat} {bits : List Bool} (h : position + bits.length ≤ 32)
    (k : Nat) : (BitVec.ofNat 32 (bitsValue bits <<< position)).getLsbD k = true ↔
      position ≤ k ∧ bits.reverse[k - position]? = some true := by
  simp only [BitVec.getLsbD_ofNat, Nat.testBit_shiftLeft, testBit_bitsValue, Bool.and_eq_true,
    decide_eq_true_eq, ge_iff_le]
  constructor
  · rintro ⟨_, hk, hbit⟩
    cases hget : bits.reverse[k - position]? with
    | none => simp [hget] at hbit
    | some bit => simpa [hget, hk] using hbit
  · rintro ⟨hk, hbit⟩
    obtain ⟨hlt, _⟩ := List.getElem?_eq_some_iff.mp hbit
    rw [List.length_reverse] at hlt
    exact ⟨by omega, hk, by rw [hbit]; rfl⟩

/-- The cell of a bit is fixed by a run of fixed bits, or by what is below the run. -/
theorem cellAt_fixed_append (bits : List Bool) (row : List Piece) (k : Nat) (bit : Bool) :
    cellAt (bits.map .fixed ++ row) k = some (.fixed bit) ↔
      cellAt row k = some (.fixed bit) ∨
        (cells row).length ≤ k ∧ bits.reverse[k - (cells row).length]? = some bit := by
  rw [cellAt_append]
  split
  · next hk => simp [Nat.not_le_of_lt hk]
  · next hk =>
    have hle := Nat.le_of_not_lt hk
    rw [cellAt_eq_none hle, cellAt, cells_fixed, ← List.map_reverse, List.getElem?_map]
    cases bits.reverse[k - (cells row).length]? <;> simp [hle]

theorem Represents.literal {placement : Placement} {row : List Piece} (H : placement.Represents row)
    {bits : List Bool} (hfit : (cells row).length + bits.length ≤ 32) :
    (placement.literal bits).Represents (bits.map .fixed ++ row) := by
  have hplaced : placement.position + bits.length ≤ 32 := H.position ▸ hfit
  rw [Placement.literal, if_pos hplaced]
  constructor
  · refine (position_advance_of_le hplaced).trans ?_
    simp [cells_fixed, H.position, Nat.add_comm]
  · intro k
    change (placement.mask ||| _).getLsbD k = true ↔ _
    rw [BitVec.getLsbD_or, Bool.or_eq_true, H.mask, getLsbD_placed_mask hplaced, H.position]
    simp only [cellAt_fixed_append, exists_or, exists_and_left]
    refine or_congr_right (and_congr_right fun hk => ?_)
    constructor
    · intro hlt
      exact ⟨_, List.getElem?_eq_getElem (by rw [List.length_reverse]; omega)⟩
    · rintro ⟨bit, hbit⟩
      obtain ⟨hlt, _⟩ := List.getElem?_eq_some_iff.mp hbit
      rw [List.length_reverse] at hlt
      omega
  · intro k
    change (placement.matchValue ||| _).getLsbD k = true ↔ _
    rw [BitVec.getLsbD_or, Bool.or_eq_true, H.matchValue, getLsbD_placed_bits hplaced, H.position,
      cellAt_fixed_append]
  · rw [slices_append (List.forall_mem_map.mpr fun _ _ => rfl)]
    exact H.slices
  · rw [fields_append (List.forall_mem_map.mpr fun _ _ => rfl)]
    exact H.fields

/-! ### Everything else -/

/-- Moving up over pieces that fix no bit, and recording their slices and fields, puts them on top of the row. -/
theorem Represents.above {placement moved : Placement} {row : List Piece}
    (H : placement.Represents row) (above : List Piece) (hfixed : ∀ piece ∈ above, piece.isFixed = false)
    (hposition : moved.position = placement.position + (cells above).length)
    (hmask : moved.mask = placement.mask) (hmatch : moved.matchValue = placement.matchValue)
    (hslices : moved.slices = Pattern.slices (above ++ row))
    (hfields : moved.fields = Pattern.fields (above ++ row)) : moved.Represents (above ++ row) where
  position := by rw [hposition, H.position, cells_append, List.length_append, Nat.add_comm]
  mask k := by simp only [hmask, H.mask, cellAt_append_fixed_iff hfixed]
  matchValue k := by rw [hmatch, H.matchValue, cellAt_append_fixed_iff hfixed]
  slices := hslices
  fields := hfields

theorem Represents.filler {placement : Placement} {row : List Piece} (H : placement.Represents row)
    {count : Nat} (hfit : (cells row).length + count ≤ 32) :
    (placement.advance count).Represents (List.replicate count .free ++ row) := by
  have hfree : ∀ piece ∈ List.replicate count Piece.free, piece = .free :=
    fun piece h => List.eq_of_mem_replicate h
  refine H.above _ (fun piece h => hfree piece h ▸ rfl) ?_ rfl rfl ?_ ?_
  · rw [position_advance_of_le (H.position ▸ hfit), cells_free, List.length_replicate]
  · rw [slices_append fun piece h => hfree piece h ▸ rfl]
    exact H.slices
  · rw [fields_append fun piece h => hfree piece h ▸ rfl]
    exact H.fields

theorem Represents.slice {placement : Placement} {row : List Piece} (H : placement.Represents row)
    {range : BitRange} {signed : Bool}
    (hfit : (cells row).length + (range.hi - range.lo + 1) ≤ 32) :
    (placement.slice range signed).Represents (.slice range signed :: row) := by
  have hsingle : ∀ piece ∈ [Piece.slice range signed], piece = .slice range signed :=
    fun piece h => List.mem_singleton.mp h
  refine H.above [.slice range signed] (fun piece h => hsingle piece h ▸ rfl) ?_ rfl rfl ?_ ?_
  · rw [Placement.slice]
    refine (position_advance_of_le (H.position ▸ hfit)).trans ?_
    simp [Piece.width]
  · show placement.slices ++ _ = _
    rw [List.singleton_append, slices_cons, H.slices, H.position]
    rfl
  · rw [fields_append fun piece h => hsingle piece h ▸ rfl]
    exact H.fields

theorem Represents.field {placement : Placement} {row : List Piece} (H : placement.Represents row)
    {name : String} {width : Nat} (hfit : (cells row).length + width ≤ 32) :
    (placement.field name width).Represents (.field name width :: row) := by
  have hsingle : ∀ piece ∈ [Piece.field name width], piece = .field name width :=
    fun piece h => List.mem_singleton.mp h
  refine H.above [.field name width] (fun piece h => hsingle piece h ▸ rfl) ?_ rfl rfl ?_ ?_
  · rw [Placement.field]
    refine (position_advance_of_le (H.position ▸ hfit)).trans ?_
    simp [Piece.width]
  · rw [slices_append fun piece h => hsingle piece h ▸ rfl]
    exact H.slices
  · show placement.fields ++ _ = _
    rw [List.singleton_append, fields_cons, H.fields, H.position]
    rfl

end Placement

/-! ### Tokens -/

end Layout

/-- Both numerals of a component consist of digits. -/
def Component.Readable (component : Component) : Prop :=
  (∀ c ∈ component.hi.toList, c.isDigit = true) ∧
    ∀ c ∈ (component.lo?.getD component.hi).toList, c.isDigit = true

/-- Every numeral of a token consists of digits, and no field is wider than can be counted. -/
def PatternToken.Readable : PatternToken → Prop
  | .literal _ => True
  | .filler _ => True
  | .immediate _ lead others => ∀ component ∈ lead :: others, component.Readable
  | .field _ width => (∀ c ∈ width.toList, c.isDigit = true) ∧ numeralValue width < wordLimit

namespace Layout

theorem index_eq_ok_iff {digits : String} {n : Nat} :
    index digits = .ok n ↔
      (∀ c ∈ digits.toList, c.isDigit = true) ∧ n = numeralValue digits ∧ n < wordLimit := by
  rw [← readIndex?_eq_some_iff, index]
  cases readIndex? digits <;> simp

theorem componentRange_eq_bind (component : Component) :
    componentRange component = (do
      let hi ← index component.hi
      let lo ← index (component.lo?.getD component.hi)
      if hi < lo then throw (.componentReversed component.text)
      if 31 < hi then throw (.componentTooHigh component.text)
      return ⟨hi, lo⟩) := by
  rw [componentRange]
  cases h : index component.hi with
  | error e => rfl
  | ok hi =>
    cases component.lo? with
    | none => rw [Option.getD_none, h]; rfl
    | some lo => rfl

theorem componentRange_eq_ok_iff {component : Component} {range : BitRange} :
    componentRange component = .ok range ↔
      (component.Readable ∧ (Piece.slice component.range false).Legal) ∧
        range = component.range := by
  rw [componentRange_eq_bind]
  simp only [bind_eq_ok_iff, check_eq_ok_iff, index_eq_ok_iff]
  constructor
  · rintro ⟨hi, ⟨hhi, rfl, hhiw⟩, lo, ⟨hlo, rfl, hlow⟩, hle, htop, h⟩
    cases h
    exact ⟨⟨⟨hhi, hlo⟩, Nat.le_of_not_lt hle, Nat.le_of_not_lt htop⟩, rfl⟩
  · rintro ⟨⟨⟨hhi, hlo⟩, hle, htop⟩, rfl⟩
    have hword : (31 : Nat) < wordLimit := by decide
    refine ⟨_, ⟨hhi, rfl, ?_⟩, _, ⟨hlo, rfl, ?_⟩, ?_, ?_, rfl⟩
    · exact Nat.lt_of_le_of_lt htop hword
    · exact Nat.lt_of_le_of_lt (Nat.le_trans hle htop) hword
    · exact Nat.not_lt_of_le hle
    · exact Nat.not_lt_of_le htop

/-- Place one token whose numbers are legal. -/
def Placement.put (placement : Placement) : PatternToken → Placement
  | .literal bits => placement.literal bits
  | .filler count => placement.advance count
  | .immediate signed lead others =>
    ((others.map Component.range).reverse.foldl (fun placement range => placement.slice range false)
      placement).slice lead.range signed
  | .field name width => placement.field name (numeralValue width)

theorem place_eq_ok_iff {placement placed : Placement} {token : PatternToken} :
    place placement token = .ok placed ↔
      (token.Readable ∧ ∀ piece ∈ token.pieces, piece.Legal) ∧ placed = placement.put token := by
  cases token with
  | literal bits =>
    have hlegal : ∀ piece ∈ (PatternToken.literal bits).pieces, piece.Legal :=
      List.forall_mem_map.mpr fun _ _ => trivial
    exact ⟨fun h => by cases h; exact ⟨⟨trivial, hlegal⟩, rfl⟩, fun ⟨_, h⟩ => h ▸ rfl⟩
  | filler count =>
    have hlegal : ∀ piece ∈ (PatternToken.filler count).pieces, piece.Legal :=
      fun piece h => List.eq_of_mem_replicate h ▸ trivial
    exact ⟨fun h => by cases h; exact ⟨⟨trivial, hlegal⟩, rfl⟩, fun ⟨_, h⟩ => h ▸ rfl⟩
  | immediate signed lead others =>
    simp only [place, bind_eq_ok_iff, componentRange_eq_ok_iff,
      mapM_eq_ok_iff componentRange_eq_ok_iff, PatternToken.pieces, PatternToken.Readable,
      List.forall_mem_cons, List.forall_mem_map]
    constructor
    · rintro ⟨_, ⟨⟨hlead, hrange⟩, rfl⟩, _, ⟨hothers, rfl⟩, h⟩
      cases h
      exact ⟨⟨⟨hlead, fun c hc => (hothers c hc).1⟩, hrange, fun c hc => (hothers c hc).2⟩, rfl⟩
    · rintro ⟨⟨⟨hlead, hothers⟩, hrange, hranges⟩, rfl⟩
      exact ⟨_, ⟨⟨hlead, hrange⟩, rfl⟩, _, ⟨fun c hc => ⟨hothers c hc, hranges c hc⟩, rfl⟩, rfl⟩
  | field name width =>
    simp only [place, bind_eq_ok_iff, check_eq_ok_iff, index_eq_ok_iff, PatternToken.pieces,
      PatternToken.Readable, List.forall_mem_singleton]
    constructor
    · rintro ⟨_, ⟨hdigits, rfl, hlimit⟩, hzero, h⟩
      cases h
      exact ⟨⟨⟨hdigits, hlimit⟩, Nat.one_le_iff_ne_zero.mpr hzero⟩, rfl⟩
    · rintro ⟨⟨⟨hdigits, hlimit⟩, hpos⟩, rfl⟩
      exact ⟨_, ⟨hdigits, rfl, hlimit⟩, Nat.one_le_iff_ne_zero.mp hpos, rfl⟩

theorem placeAll_eq_ok_iff {placement placed : Placement} {tokens : List PatternToken} :
    placeAll placement tokens = .ok placed ↔
      (∀ token ∈ tokens, token.Readable ∧ ∀ piece ∈ token.pieces, piece.Legal) ∧
        placed = tokens.foldl Placement.put placement := by
  induction tokens generalizing placement with
  | nil => exact ⟨fun h => ⟨nofun, by cases h; rfl⟩, fun ⟨_, h⟩ => h ▸ rfl⟩
  | cons token rest ih =>
    rw [placeAll, List.forall_mem_cons, List.foldl_cons]
    cases h : place placement token with
    | error fault =>
      refine ⟨nofun, fun ⟨⟨hlegal, _⟩, _⟩ => ?_⟩
      rw [place_eq_ok_iff.mpr ⟨hlegal, rfl⟩] at h
      cases h
    | ok next =>
      obtain ⟨hlegal, rfl⟩ := place_eq_ok_iff.mp h
      rw [ih, and_iff_right hlegal]

/-! ### Rows of tokens -/

theorem Placement.Represents.slicesBelow {placement : Placement} {row : List Piece}
    (H : placement.Represents row) {ranges : List BitRange}
    (hfit : (cells (ranges.map (Piece.slice · false))).length + (cells row).length ≤ 32) :
    (ranges.reverse.foldl (fun placement range => placement.slice range false) placement).Represents
      (ranges.map (Piece.slice · false) ++ row) := by
  induction ranges with
  | nil => exact H
  | cons range ranges ih =>
    simp only [List.map_cons, cells_cons, List.length_append, List.length_replicate,
      Piece.width] at hfit
    rw [List.reverse_cons, List.foldl_append]
    refine (ih (by omega)).slice ?_
    rw [cells_append, List.length_append]
    omega

/-- Placing a token puts its pieces on top of the row. -/
theorem Placement.Represents.put {placement : Placement} {row : List Piece}
    (H : placement.Represents row) {token : PatternToken}
    (hfit : (cells token.pieces).length + (cells row).length ≤ 32) :
    (placement.put token).Represents (token.pieces ++ row) := by
  cases token with
  | literal bits =>
    rw [PatternToken.pieces, cells_fixed, List.length_map] at hfit
    exact H.literal (by omega)
  | filler count =>
    rw [PatternToken.pieces, cells_free, List.length_replicate] at hfit
    exact H.filler (by omega)
  | immediate signed lead others =>
    simp only [PatternToken.pieces, cells_cons, List.length_append, List.length_replicate,
      Piece.width] at hfit
    have hmap : others.map (fun component => Piece.slice component.range false) =
        (others.map Component.range).map (Piece.slice · false) := by simp
    rw [hmap] at hfit
    rw [PatternToken.pieces, hmap]
    refine (H.slicesBelow (by omega)).slice ?_
    rw [cells_append, List.length_append]
    omega
  | field name width =>
    simp only [PatternToken.pieces, cells_cons, cells_nil, List.append_nil, List.length_replicate,
      Piece.width] at hfit
    exact H.field (by omega)

private theorem position_slicesBelow (placement : Placement) (ranges : List BitRange) (width : Nat) :
    min ((ranges.reverse.foldl (fun placement range => placement.slice range false)
        placement).position + width) positionLimit =
      min (placement.position + (cells (ranges.map (Piece.slice · false))).length + width)
        positionLimit := by
  induction ranges generalizing width with
  | nil => rfl
  | cons range ranges ih =>
    rw [List.reverse_cons, List.foldl_append, List.foldl_cons, List.foldl_nil, Placement.slice,
      Placement.position_advance, ih, List.map_cons, cells_cons, List.length_append,
      List.length_replicate, Piece.width]
    omega

/-- The position counts every cell, up to the limit of what is counted. -/
theorem Placement.position_put (placement : Placement) (token : PatternToken) :
    (placement.put token).position =
      min (placement.position + (cells token.pieces).length) positionLimit := by
  cases token with
  | literal bits =>
    rw [PatternToken.pieces, cells_fixed, List.length_map, put, Placement.literal]
    split <;> rfl
  | filler count =>
    rw [PatternToken.pieces, cells_free, List.length_replicate]
    rfl
  | immediate signed lead others =>
    rw [put, Placement.slice]
    refine (position_slicesBelow placement _ _).trans ?_
    simp only [PatternToken.pieces, cells_cons, List.length_append, List.length_replicate,
      List.map_map, Function.comp_def, Piece.width]
    omega
  | field name width =>
    rw [PatternToken.pieces, cells_cons, cells_nil, List.append_nil, List.length_replicate]
    rfl

theorem foldl_put_represents {placement : Placement} {row : List Piece}
    (H : placement.Represents row) {tokens : List PatternToken}
    (hfit : (cells (pieces tokens.reverse)).length + (cells row).length ≤ 32) :
    (tokens.foldl Placement.put placement).Represents (pieces tokens.reverse ++ row) := by
  induction tokens generalizing placement row with
  | nil => exact H
  | cons token rest ih =>
    rw [List.reverse_cons, pieces_append, pieces_singleton] at hfit ⊢
    rw [cells_append, List.length_append] at hfit
    rw [List.append_assoc, List.foldl_cons]
    refine ih (H.put (by omega)) ?_
    rw [cells_append, List.length_append]
    omega

theorem foldl_put_position {placement : Placement} (hlimit : placement.position ≤ positionLimit)
    (tokens : List PatternToken) :
    (tokens.foldl Placement.put placement).position =
      min (placement.position + (cells (pieces tokens.reverse)).length) positionLimit := by
  induction tokens generalizing placement with
  | nil => exact (Nat.min_eq_left hlimit).symm
  | cons token rest ih =>
    have hput := placement.position_put token
    rw [List.foldl_cons, ih (hput ▸ Nat.min_le_right _ _), hput, List.reverse_cons, pieces_append,
      pieces_singleton, cells_append, List.length_append]
    omega

/-! ### Layouts -/

/-- A layout is what a row of legal pieces, as wide as an instruction, means. -/
structure Realizes (layout : Layout) (row : List Piece) : Prop where
  legal : ∀ piece ∈ row, piece.Legal
  width : (cells row).length = layout.width.bits
  mask (k : Nat) : layout.mask.getLsbD k = true ↔ ∃ bit, cellAt row k = some (.fixed bit)
  matchValue (k : Nat) : layout.matchValue.getLsbD k = true ↔ cellAt row k = some (.fixed true)
  immediate : layout.immediate = immediateOf (Pattern.slices row)
  fields : layout.fields = Pattern.fields row

/-- The slices of the immediate of a layout, none if it has no immediate. -/
def slices (layout : Layout) : List Slice :=
  layout.immediate.elim [] Immediate.slices

theorem Realizes.slices_eq {layout : Layout} {row : List Piece} (H : layout.Realizes row) :
    layout.slices = Pattern.slices row := by
  rw [slices, H.immediate, immediateOf]
  split
  · next h => exact (List.isEmpty_iff.mp h).symm
  · rfl

theorem Realizes.getLsbD_mask {layout : Layout} {row : List Piece} (H : layout.Realizes row)
    (k : Nat) : layout.mask.getLsbD k = (cellAt row k).any Piece.isFixed :=
  Bool.eq_iff_iff.mpr ((H.mask k).trans (Piece.any_isFixed _).symm)

theorem bits_le (width : Width) : width.bits ≤ 32 := by
  cases width <;> decide

theorem ofBits?_eq_some_iff {bits : Nat} {width : Width} :
    Width.ofBits? bits = some width ↔ bits = width.bits := by
  constructor
  · intro h
    unfold Width.ofBits? at h
    split at h <;> cases h <;> rfl
  · rintro rfl
    cases width <;> rfl

/-- A row has only one layout. -/
theorem Realizes.unique {layout layout' : Layout} {row : List Piece} (H : layout.Realizes row)
    (H' : layout'.Realizes row) : layout = layout' := by
  obtain ⟨matchValue, mask, width, immediate, fields⟩ := layout
  obtain ⟨matchValue', mask', width', immediate', fields'⟩ := layout'
  have hmatch : matchValue = matchValue' := BitVec.eq_of_getLsbD_eq fun k _ =>
    Bool.eq_iff_iff.mpr ((H.matchValue k).trans (H'.matchValue k).symm)
  have hmask : mask = mask' := BitVec.eq_of_getLsbD_eq fun k _ =>
    Bool.eq_iff_iff.mpr ((H.mask k).trans (H'.mask k).symm)
  have hwidth : some width = some width' :=
    (ofBits?_eq_some_iff.mpr H.width).symm.trans (ofBits?_eq_some_iff.mpr H'.width)
  have himmediate : immediate = immediate' := H.immediate.trans H'.immediate.symm
  have hfields : fields = fields' := H.fields.trans H'.fields.symm
  cases hwidth
  subst hmatch hmask himmediate hfields
  rfl

private theorem position_placed (tokens : List PatternToken) :
    (tokens.reverse.foldl Placement.put {}).position =
      min (cells (pieces tokens)).length positionLimit := by
  rw [foldl_put_position (Nat.zero_le _), List.reverse_reverse]
  exact congrArg (min · positionLimit) (Nat.zero_add _)

/-- What the placed tokens of a legal pattern amount to. -/
theorem placed_realizes {tokens : List PatternToken} (width : Width)
    (hlegal : ∀ piece ∈ pieces tokens, piece.Legal)
    (hwidth : (cells (pieces tokens)).length = width.bits) :
    let placement := tokens.reverse.foldl Placement.put {}
    Realizes ⟨placement.matchValue, placement.mask, width, immediateOf placement.slices,
      placement.fields⟩ (pieces tokens) := by
  have hfit : (cells (pieces tokens.reverse.reverse)).length + (cells []).length ≤ 32 := by
    rw [List.reverse_reverse, hwidth]
    exact bits_le width
  have H := foldl_put_represents Placement.represents_nil hfit
  rw [List.reverse_reverse, List.append_nil] at H
  exact ⟨hlegal, hwidth, H.mask, H.matchValue, congrArg immediateOf H.slices, H.fields⟩

/-- A pattern is laid out exactly if its numbers can be read and its pieces are legal and as wide as an instruction. -/
theorem resolve_eq_ok_iff {line : Nat} {pattern : String} {layout : Layout} :
    resolve line pattern = .ok layout ↔
      ∃ tokens, Pattern.parse pattern = .ok tokens ∧ (∀ token ∈ tokens, token.Readable) ∧
        layout.Realizes (pieces tokens) := by
  have hlimit : 32 < positionLimit := by decide
  constructor
  · intro h
    unfold resolve at h
    split at h
    · cases h
    · next tokens hparse =>
      split at h
      · cases h
      · next placement hplace =>
        obtain ⟨htokens, rfl⟩ := placeAll_eq_ok_iff.mp hplace
        simp only [List.mem_reverse] at htokens
        split at h
        · cases h
        · next width hwidth =>
          cases h
          have hbits := ofBits?_eq_some_iff.mp hwidth
          rw [position_placed] at hbits
          have := bits_le width
          refine ⟨tokens, hparse, fun token ht => (htokens token ht).1, placed_realizes width ?_ (by omega)⟩
          exact List.forall_mem_flatMap.mpr fun token ht => (htokens token ht).2
  · rintro ⟨tokens, hparse, hreadable, H⟩
    have hlegal : ∀ token ∈ tokens.reverse, token.Readable ∧ ∀ piece ∈ token.pieces, piece.Legal := by
      intro token ht
      rw [List.mem_reverse] at ht
      exact ⟨hreadable token ht, List.forall_mem_flatMap.mp H.legal token ht⟩
    have hplace : placeAll {} tokens.reverse = .ok (tokens.reverse.foldl Placement.put {}) :=
      placeAll_eq_ok_iff.mpr ⟨hlegal, rfl⟩
    have hwidth : Width.ofBits? (tokens.reverse.foldl Placement.put {}).position =
        some layout.width := by
      rw [ofBits?_eq_some_iff, position_placed, H.width]
      have := bits_le layout.width
      omega
    have hlayout := (placed_realizes _ H.legal H.width).unique H
    unfold resolve
    simp only [hparse, hplace, hwidth, hlayout]

end Layout

end IsaForge
