import IsaForge.Proofs.Spelling

/-!
The value of an immediate. Bit by bit, what a slice gives is its bits at their place and, if its sign is extended and set,
all bits above (`Slice.getLsbD_extract`). Joined over the slices, the immediate is an unsigned number and a mask of signs
(`Immediate.reconstruct_eq`). The pattern without its minus signs is laid out alike but for the signs
(`Layout.resolve_withoutSigns`), so that it gives the unsigned number alone.
-/

namespace IsaForge

/-! ### Joined bits -/

theorem getLsbD_foldl_or {α : Type} {w : Nat} (f : α → BitVec w) (xs : List α) (value : BitVec w)
    (k : Nat) : (xs.foldl (fun value x => value ||| f x) value).getLsbD k =
      (value.getLsbD k || xs.any fun x => (f x).getLsbD k) := by
  induction xs generalizing value with
  | nil => simp
  | cons x xs ih => rw [List.foldl_cons, ih, BitVec.getLsbD_or, List.any_cons, Bool.or_assoc]

theorem testBit_foldl_or {α : Type} (f : α → Nat) (xs : List α) (value k : Nat) :
    (xs.foldl (fun value x => value ||| f x) value).testBit k =
      (value.testBit k || xs.any fun x => (f x).testBit k) := by
  induction xs generalizing value with
  | nil => simp
  | cons x xs ih => rw [List.foldl_cons, ih, Nat.testBit_or, List.any_cons, Bool.or_assoc]

/-- A negated power of two has all bits from that of the power on. -/
theorem getLsbD_ofInt_neg_two_pow (n k : Nat) :
    (BitVec.ofInt 64 (-2 ^ n)).getLsbD k = (decide (n ≤ k) && decide (k < 64)) := by
  have hneg : BitVec.ofInt 64 (-2 ^ n) = -BitVec.twoPow 64 n := by
    rw [BitVec.ofInt_neg]
    congr 1
    refine BitVec.eq_of_toNat_eq ?_
    rw [BitVec.toNat_twoPow]
    exact BitVec.toNat_ofNat (2 ^ n) 64
  have hbelow : (∃ j < k, (BitVec.twoPow 64 n).getLsbD j = true) ↔ n < k ∧ n < 64 := by
    simp only [BitVec.getLsbD_twoPow, Bool.and_eq_true, decide_eq_true_eq]
    constructor
    · rintro ⟨j, hj, hn, rfl⟩
      exact ⟨hj, hn⟩
    · rintro ⟨hlt, hn⟩
      exact ⟨n, hlt, hn, rfl⟩
  rw [hneg, BitVec.getLsbD_neg, BitVec.getLsbD_twoPow]
  simp only [hbelow]
  rcases Nat.lt_trichotomy n k with hlt | rfl | hlt
  · by_cases hk : k < 64
    · simp [hlt, Nat.ne_of_lt hlt, Nat.le_of_lt hlt, hk, Nat.lt_trans hlt hk]
    · simp [Nat.ne_of_lt hlt, hk]
  · simp
  · simp [Nat.ne_of_gt hlt, Nat.not_lt_of_gt hlt, Nat.not_le_of_gt hlt]

/-- A word whose bits from bit `n` on are all set stands for a negative number that is not below `-2 ^ n`. -/
theorem toInt_of_high_bits {x : BitVec 64} {n : Nat} (hn : n < 64)
    (h : ∀ k, n ≤ k → k < 64 → x.getLsbD k = true) : -2 ^ n ≤ x.toInt ∧ x.toInt < 0 := by
  have hnot : (~~~x).toNat < 2 ^ n := by
    rw [BitVec.toNat_lt_iff_getLsbD_eq_false n hn]
    intro k
    rw [BitVec.getLsbD_not]
    by_cases hk : n + k < 64
    · rw [h (n + k) (by omega) hk]
      simp
    · simp [hk]
  have hpow : 2 ^ n ≤ 2 ^ 63 := Nat.pow_le_pow_right (by decide) (by omega)
  have hlt := x.isLt
  rw [BitVec.toNat_not] at hnot
  have hcast : ((2 ^ n : Nat) : Int) = 2 ^ n := by push_cast; rfl
  rw [BitVec.toInt_eq_toNat_cond, if_neg (by omega)]
  omega

/-! ### Slices -/

namespace Slice

/-- The bits of a slice, read as a number and moved to their place in the immediate. -/
def unsignedValue (slice : Slice) (word : Word) : Nat :=
  (word.extractLsb' slice.position slice.width).toNat <<< slice.shift

/-- Whether a slice extends its sign and the sign is set in the word. -/
def isNegative (slice : Slice) (word : Word) : Bool :=
  slice.signExtend && word.getLsbD slice.sourceHi

variable {slice : Slice}

theorem testBit_unsignedValue (slice : Slice) (word : Word) (k : Nat) :
    (slice.unsignedValue word).testBit k =
      (decide (slice.shift ≤ k) && (decide (k - slice.shift < slice.width) &&
        word.getLsbD (slice.position + (k - slice.shift)))) := by
  rw [unsignedValue, Nat.testBit_shiftLeft, BitVec.testBit_toNat,
    BitVec.getLsbD_extractLsb']

/-- What a slice gives has its bits at their place, and its sign in all bits above. -/
theorem getLsbD_extract (hpos : 0 < slice.width) (word : Word) {k : Nat} (hk : k < 64) :
    (slice.extract word).getLsbD k =
      ((slice.unsignedValue word).testBit k ||
        (slice.isNegative word && decide (slice.shift + slice.width ≤ k))) := by
  have hmsb : (word.extractLsb' slice.position slice.width).msb = word.getLsbD slice.sourceHi := by
    rw [BitVec.msb_eq_getLsbD_last, BitVec.getLsbD_extractLsb', decide_eq_true (by omega), Bool.true_and,
      sourceHi, Nat.add_sub_assoc hpos]
  rw [extract, testBit_unsignedValue, isNegative, BitVec.getLsbD_shiftLeft]
  cases hsign : slice.signExtend with
  | true =>
    simp only [if_true, BitVec.getLsbD_signExtend, hmsb, BitVec.getLsbD_extractLsb']
    grind
  | false =>
    simp only [Bool.false_eq_true, if_false, BitVec.getLsbD_setWidth, BitVec.getLsbD_extractLsb']
    grind

end Slice

/-! ### Immediates -/

namespace Immediate

/-- The slices of a word at their places, no sign extended. -/
def unsignedPart (immediate : Immediate) (word : Word) : Nat :=
  immediate.slices.foldl (fun value slice => value ||| slice.unsignedValue word) 0

/-- The bits above the slices whose sign is extended and set. -/
def signPart (immediate : Immediate) (word : Word) : BitVec 64 :=
  (immediate.slices.filter (·.isNegative word)).foldl
    (fun value slice => value ||| BitVec.ofInt 64 (-2 ^ (slice.shift + slice.width))) 0

/-- The slices of an immediate are not empty and stay within 32 bits. -/
structure InBounds (immediate : Immediate) : Prop where
  pos : ∀ slice ∈ immediate.slices, 0 < slice.width
  end_le : ∀ slice ∈ immediate.slices, slice.shift + slice.width ≤ 32

variable {immediate : Immediate}

theorem testBit_unsignedPart (immediate : Immediate) (word : Word) (k : Nat) :
    (immediate.unsignedPart word).testBit k =
      immediate.slices.any fun slice => (slice.unsignedValue word).testBit k := by
  rw [unsignedPart, testBit_foldl_or, Nat.zero_testBit, Bool.false_or]

theorem getLsbD_signPart (immediate : Immediate) (word : Word) {k : Nat} (hk : k < 64) :
    (immediate.signPart word).getLsbD k =
      immediate.slices.any fun slice =>
        slice.isNegative word && decide (slice.shift + slice.width ≤ k) := by
  rw [signPart, getLsbD_foldl_or, List.any_filter]
  simp only [getLsbD_ofInt_neg_two_pow, hk, decide_true, Bool.and_true]
  simp

/-- An immediate is its unsigned part and the bits of its signs. -/
theorem reconstruct_eq (hpos : ∀ slice ∈ immediate.slices, 0 < slice.width) (word : Word) :
    immediate.reconstruct word =
      BitVec.ofNat 64 (immediate.unsignedPart word) ||| immediate.signPart word := by
  refine BitVec.eq_of_getLsbD_eq fun k hk => ?_
  rw [reconstruct, getLsbD_foldl_or, BitVec.getLsbD_or, BitVec.getLsbD_ofNat, testBit_unsignedPart,
    getLsbD_signPart immediate word hk]
  rw [show (0 : BitVec 64).getLsbD k = false from BitVec.getLsbD_zero, Bool.false_or,
    decide_eq_true hk, Bool.true_and, Bool.eq_iff_iff]
  simp only [Bool.or_eq_true, List.any_eq_true]
  rw [← exists_or]
  refine exists_congr fun slice => ?_
  rw [← and_or_left]
  refine and_congr_right fun hslice => ?_
  rw [Slice.getLsbD_extract (hpos slice hslice) word hk, Bool.or_eq_true]

theorem unsignedPart_lt {n : Nat} (h : ∀ slice ∈ immediate.slices, slice.shift + slice.width ≤ n)
    (word : Word) : immediate.unsignedPart word < 2 ^ n := by
  refine Nat.lt_pow_two_of_testBit _ fun k hk => ?_
  rw [testBit_unsignedPart, List.any_eq_false]
  intro slice hslice
  have := h slice hslice
  rw [Slice.testBit_unsignedValue, decide_eq_false (show ¬ k - slice.shift < slice.width by omega)]
  simp

/-- Where no sign is set, the immediate is its unsigned part. -/
theorem toInt_reconstruct_of_nonnegative (H : immediate.InBounds) {word : Word}
    (h : ∀ slice ∈ immediate.slices, slice.isNegative word = false) :
    immediate.reconstruct word = BitVec.ofNat 64 (immediate.unsignedPart word) ∧
      (immediate.reconstruct word).toInt = immediate.unsignedPart word := by
  have hsign : immediate.signPart word = 0 := by
    rw [signPart, List.filter_eq_nil_iff.mpr fun slice hslice => by simp [h slice hslice]]
    rfl
  have hlt := unsignedPart_lt H.end_le word
  have heq := reconstruct_eq H.pos word
  rw [hsign, show (0 : BitVec 64) = 0#64 from rfl, BitVec.or_zero] at heq
  refine ⟨heq, ?_⟩
  rw [heq, BitVec.toInt_eq_toNat_of_lt, BitVec.toNat_ofNat, Nat.mod_eq_of_lt]
  · omega
  · rw [BitVec.toNat_ofNat, Nat.mod_eq_of_lt] <;> omega

/-- A sign that is set makes the immediate negative, though not below the number of which only the sign is set. -/
theorem toInt_reconstruct_of_negative
    (hpos : ∀ slice ∈ immediate.slices, 0 < slice.width) {word : Word} {slice : Slice}
    (hslice : slice ∈ immediate.slices) (hend : slice.shift + slice.width ≤ 64)
    (hnegative : slice.isNegative word = true) :
    -2 ^ (slice.shift + slice.width - 1) ≤ (immediate.reconstruct word).toInt ∧
      (immediate.reconstruct word).toInt < 0 := by
  have hwidth := hpos slice hslice
  refine toInt_of_high_bits (by omega) fun k hk hk64 => ?_
  rw [reconstruct_eq hpos, BitVec.getLsbD_or, BitVec.getLsbD_ofNat, testBit_unsignedPart,
    getLsbD_signPart immediate word hk64, decide_eq_true hk64, Bool.true_and, Bool.or_eq_true,
    List.any_eq_true, List.any_eq_true]
  by_cases htop : slice.shift + slice.width ≤ k
  · exact .inr ⟨slice, hslice, by rw [hnegative, decide_eq_true htop]; rfl⟩
  · -- The lowest of these bits is the sign itself.
    have hsign : word.getLsbD slice.sourceHi = true := (Bool.and_eq_true_iff.mp hnegative).2
    have hsource : slice.position + (k - slice.shift) = slice.sourceHi := by
      rw [Slice.sourceHi]
      omega
    refine .inl ⟨slice, hslice, ?_⟩
    rw [Slice.testBit_unsignedValue, hsource, hsign, decide_eq_true (by omega), decide_eq_true (by omega)]
    rfl

/-- An immediate fits 32 bits, with a sign or without. -/
theorem toInt_reconstruct_bounds (H : immediate.InBounds) (word : Word) :
    -2 ^ 31 ≤ (immediate.reconstruct word).toInt ∧ (immediate.reconstruct word).toInt < 2 ^ 32 := by
  by_cases h : ∀ slice ∈ immediate.slices, slice.isNegative word = false
  · have hlt := unsignedPart_lt H.end_le word
    rw [(toInt_reconstruct_of_nonnegative H h).2]
    omega
  · simp only [not_forall, Bool.not_eq_false] at h
    obtain ⟨slice, hslice, hnegative⟩ := h
    have hend := H.end_le slice hslice
    obtain ⟨hlow, hhigh⟩ := toInt_reconstruct_of_negative H.pos
      hslice (by omega) hnegative
    have hpow : (2 : Int) ^ (slice.shift + slice.width - 1) ≤ 2 ^ 31 :=
      pow_le_pow_right₀ (by decide) (by omega)
    omega

/-- Where the only sign that is set stands above all other slices, it counts as a negative power of two. -/
theorem toInt_reconstruct_of_top (H : immediate.InBounds) {word : Word}
    {slice : Slice} (hslice : slice ∈ immediate.slices) (hnegative : slice.isNegative word = true)
    (hothers : ∀ other ∈ immediate.slices, other ≠ slice →
      other.signExtend = false ∧ other.shift + other.width ≤ slice.shift) :
    (immediate.reconstruct word).toInt =
      immediate.unsignedPart word - 2 ^ (slice.shift + slice.width) := by
  set n := slice.shift + slice.width with hn
  have hle : n ≤ 32 := H.end_le slice hslice
  have hlt : immediate.unsignedPart word < 2 ^ n := by
    refine unsignedPart_lt (fun other hother => ?_) word
    by_cases heq : other = slice
    · exact Nat.le_of_eq (by rw [heq])
    · exact Nat.le_trans (hothers other hother heq).2 (Nat.le_add_right _ _)
  have hsign : immediate.signPart word = BitVec.ofInt 64 (-2 ^ n) := by
    refine BitVec.eq_of_getLsbD_eq fun k hk => ?_
    rw [getLsbD_signPart immediate word hk, getLsbD_ofInt_neg_two_pow, decide_eq_true hk,
      Bool.and_true, Bool.eq_iff_iff, List.any_eq_true]
    constructor
    · rintro ⟨other, hother, hk⟩
      rw [Bool.and_eq_true] at hk
      by_cases heq : other = slice
      · rw [hn, ← heq]
        exact hk.2
      · rw [Slice.isNegative, (hothers other hother heq).1] at hk
        cases hk.1
    · intro hk
      exact ⟨slice, hslice, by rw [hnegative, hk]; rfl⟩
  have hdisjoint : BitVec.ofNat 64 (immediate.unsignedPart word) &&& BitVec.ofInt 64 (-2 ^ n) = 0#64 := by
    refine BitVec.eq_of_getLsbD_eq fun k hk => ?_
    rw [BitVec.getLsbD_and, BitVec.getLsbD_ofNat, getLsbD_ofInt_neg_two_pow, BitVec.getLsbD_zero]
    by_cases hnk : n ≤ k
    · have hpow : 2 ^ n ≤ 2 ^ k := Nat.pow_le_pow_right (by decide) hnk
      rw [Nat.testBit_lt_two_pow (Nat.lt_of_lt_of_le hlt hpow)]
      simp
    · simp [hnk]
  have hpow : (2 : Int) ^ n ≤ 2 ^ 32 := pow_le_pow_right₀ (by decide) hle
  have hlt : (immediate.unsignedPart word : Int) < 2 ^ n := by exact_mod_cast hlt
  rw [reconstruct_eq H.pos, hsign,
    ← BitVec.add_eq_or_of_and_eq_zero _ _ hdisjoint, ← BitVec.ofInt_natCast, ← BitVec.ofInt_add,
    BitVec.toInt_ofInt_eq_self (by decide) (by omega) (by omega), sub_eq_add_neg]

end Immediate

/-! ### Patterns without signs -/

/-- A slice that does not extend its sign. -/
def Slice.unsigned (slice : Slice) : Slice :=
  { slice with signExtend := false }

/-- An immediate none of whose slices extends its sign. -/
def Immediate.unsigned (immediate : Immediate) : Immediate :=
  ⟨immediate.slices.map Slice.unsigned, false⟩

/-- A layout whose immediate has no signs. -/
def Layout.unsigned (layout : Layout) : Layout :=
  { layout with immediate := layout.immediate.map Immediate.unsigned }

def Piece.unsigned : Piece → Piece
  | .slice range _ => .slice range false
  | .fixed bit => .fixed bit
  | .free => .free
  | .field name width => .field name width

def PatternToken.unsigned : PatternToken → PatternToken
  | .immediate _ lead others => .immediate false lead others
  | .literal bits => .literal bits
  | .filler count => .filler count
  | .field name width => .field name width

namespace Pattern

open Grammar

/-- A pattern without its minus signs. -/
def withoutSigns (pattern : String) : String :=
  String.ofList (pattern.toList.filter (· != '-'))

theorem pieces_map_unsigned (ts : List PatternToken) :
    pieces (ts.map PatternToken.unsigned) = (pieces ts).map Piece.unsigned := by
  rw [pieces, pieces, List.flatMap_map, List.map_flatMap]
  refine List.flatMap_congr fun t _ => ?_
  cases t <;> simp [PatternToken.unsigned, PatternToken.pieces, Piece.unsigned]

theorem cells_map_unsigned (row : List Piece) :
    cells (row.map Piece.unsigned) = (cells row).map Piece.unsigned := by
  induction row with
  | nil => rfl
  | cons piece row ih =>
    have hwidth : piece.unsigned.width = piece.width := by cases piece <;> rfl
    rw [List.map_cons, cells_cons, cells_cons, ih, hwidth, List.map_append, List.map_replicate]

theorem cellAt_map_unsigned (row : List Piece) (k : Nat) :
    cellAt (row.map Piece.unsigned) k = (cellAt row k).map Piece.unsigned := by
  rw [cellAt, cells_map_unsigned, ← List.map_reverse, List.getElem?_map, cellAt]

theorem cellAt_map_unsigned_fixed_iff (row : List Piece) (k : Nat) (bit : Bool) :
    cellAt (row.map Piece.unsigned) k = some (.fixed bit) ↔ cellAt row k = some (.fixed bit) := by
  rw [cellAt_map_unsigned]
  cases cellAt row k with
  | none => simp
  | some piece => cases piece <;> simp [Piece.unsigned]

theorem slices_map_unsigned (row : List Piece) :
    slices (row.map Piece.unsigned) = (slices row).map Slice.unsigned := by
  induction row with
  | nil => rfl
  | cons piece row ih =>
    rw [List.map_cons, slices_cons, slices_cons, ih, cells_map_unsigned, List.length_map,
      List.map_append]
    cases piece <;> rfl

theorem fields_map_unsigned (row : List Piece) :
    fields (row.map Piece.unsigned) = fields row := by
  induction row with
  | nil => rfl
  | cons piece row ih =>
    rw [List.map_cons, fields_cons, fields_cons, ih, cells_map_unsigned, List.length_map]
    cases piece <;> rfl

/-! ### Texts without signs -/

theorem filter_sign_of_forall (accepts : Char → Bool) (haccepts : accepts '-' = false)
    {cs : List Char} (h : ∀ c ∈ cs, accepts c = true) : cs.filter (· != '-') = cs := by
  refine List.filter_eq_self.mpr fun c hc => bne_iff_ne.mpr ?_
  rintro rfl
  have := h '-' hc
  rw [haccepts] at this
  cases this

theorem filter_sign_numeral {digits : String} (h : IsNumeral digits) :
    digits.toList.filter (· != '-') = digits.toList :=
  filter_sign_of_forall _ (by decide) h.2

theorem filter_sign_component {component : Component} (h : component.WellFormed) :
    component.text.toList.filter (· != '-') = component.text.toList := by
  obtain ⟨hi, lo?⟩ := component
  cases lo? with
  | none => exact filter_sign_numeral h.1
  | some lo =>
    simp only [Component.text, String.toList_append, List.filter_append, filter_sign_numeral h.1,
      filter_sign_numeral (h.2 lo rfl)]
    rfl

theorem filter_sign_othersText {others : List Component}
    (h : ∀ component ∈ others, component.WellFormed) :
    (othersText others).filter (· != '-') = othersText others := by
  rw [othersText, List.filter_flatMap]
  refine List.flatMap_congr fun component hcomponent => ?_
  rw [List.filter_cons_of_pos (by decide), filter_sign_component (h component hcomponent)]

theorem filter_sign_token {t : PatternToken} (ht : t.WellFormed) :
    t.text.toList.filter (· != '-') = t.unsigned.text.toList := by
  cases t with
  | literal bits =>
    refine filter_sign_of_forall isBit rfl fun c hc => ?_
    rw [PatternToken.text, String.toList_ofList, List.mem_map] at hc
    obtain ⟨bit, _, rfl⟩ := hc
    cases bit <;> rfl
  | filler count =>
    refine filter_sign_of_forall (· == '.') rfl fun c hc => ?_
    rw [PatternToken.text, String.toList_ofList] at hc
    rw [List.eq_of_mem_replicate hc]
    rfl
  | immediate signed lead others =>
    obtain ⟨hlead, hothers⟩ := List.forall_mem_cons.mp ht
    rw [PatternToken.unsigned, toList_immediate, toList_immediate]
    simp only [List.filter_append, filter_sign_component hlead, filter_sign_othersText hothers]
    cases signed <;> rfl
  | field name width =>
    have hname := filter_sign_of_forall isNamePart (by decide) ht.1.2
    simp only [PatternToken.unsigned, PatternToken.text, String.toList_append, List.filter_append,
      hname, filter_sign_numeral ht.2]
    rfl

/-- An item without its sign. -/
def unsignedItem (item : PatternToken × List Char) : PatternToken × List Char :=
  (item.1.unsigned, item.2)

theorem filter_sign_gap {gap : List Char} (h : IsGap gap) : gap.filter (· != '-') = gap :=
  filter_sign_of_forall _ (by decide) h

theorem filter_sign_written {items : List (PatternToken × List Char)} (h : Writable items) :
    (written items).filter (· != '-') = written (items.map unsignedItem) := by
  rw [written, written, List.filter_flatMap, List.flatMap_map]
  refine List.flatMap_congr fun item hitem => ?_
  obtain ⟨ht, hgap⟩ := h item hitem
  rw [List.filter_append, filter_sign_token ht, filter_sign_gap hgap]
  rfl

theorem Writable.unsigned {items : List (PatternToken × List Char)} (h : Writable items) :
    Writable (items.map unsignedItem) := by
  refine List.forall_mem_map.mpr fun item hitem => ?_
  obtain ⟨ht, hgap⟩ := h item hitem
  refine ⟨?_, hgap⟩
  cases item with
  | mk t gap => cases t <;> exact ht

end Pattern

namespace Layout

open Pattern

theorem Realizes.unsigned {layout : Layout} {row : List Piece} (H : layout.Realizes row) :
    layout.unsigned.Realizes (row.map Piece.unsigned) where
  legal := by
    refine List.forall_mem_map.mpr fun piece hpiece => ?_
    have := H.legal piece hpiece
    cases piece <;> exact this
  width := by rw [cells_map_unsigned, List.length_map, H.width]; rfl
  mask k := by simp only [cellAt_map_unsigned_fixed_iff]; exact H.mask k
  matchValue k := by rw [cellAt_map_unsigned_fixed_iff]; exact H.matchValue k
  immediate := by
    rw [Layout.unsigned, H.immediate, slices_map_unsigned, immediateOf, immediateOf, List.isEmpty_map]
    split
    · rfl
    · simp [Immediate.unsigned, Slice.unsigned]
  fields := by rw [fields_map_unsigned]; exact H.fields

/-- A pattern without its minus signs is laid out as it is with them, but for the signs. -/
theorem resolve_withoutSigns {line : Nat} {pattern : String} {layout : Layout}
    (h : resolve line pattern = .ok layout) :
    resolve line (withoutSigns pattern) = .ok layout.unsigned := by
  obtain ⟨tokens, hparse, _, H⟩ := resolve_eq_ok_iff.mp h
  obtain ⟨gap, items, hgap, hitems, hne, rfl, rfl⟩ := parse_spelling hparse
  have htext : withoutSigns (String.ofList (gap ++ written items)) =
      String.ofList (gap ++ written (items.map unsignedItem)) := by
    rw [withoutSigns, String.toList_ofList, List.filter_append, filter_sign_gap hgap,
      filter_sign_written hitems]
  have htokens : (items.map unsignedItem).map Prod.fst =
      (items.map Prod.fst).map PatternToken.unsigned := by
    simp [unsignedItem]
  rw [htext, resolve_written_eq_ok_iff (by simpa using hne) hitems.unsigned hgap, htokens,
    pieces_map_unsigned]
  exact H.unsigned

end Layout

theorem Immediate.unsignedPart_unsigned (immediate : Immediate) (word : Word) :
    immediate.unsigned.unsignedPart word = immediate.unsignedPart word := by
  rw [unsignedPart, unsignedPart, Immediate.unsigned, List.foldl_map]
  rfl

theorem Immediate.reconstruct_unsigned {immediate : Immediate} (H : immediate.InBounds) (word : Word) :
    immediate.unsigned.reconstruct word = BitVec.ofNat 64 (immediate.unsignedPart word) := by
  have H' : immediate.unsigned.InBounds :=
    ⟨List.forall_mem_map.mpr H.pos, List.forall_mem_map.mpr H.end_le⟩
  have hsigns : ∀ slice ∈ immediate.unsigned.slices, slice.isNegative word = false :=
    List.forall_mem_map.mpr fun _ _ => rfl
  rw [(toInt_reconstruct_of_nonnegative H' hsigns).1, unsignedPart_unsigned]

namespace Layout

theorem inBounds_of_resolve {line : Nat} {pattern : String} {layout : Layout} {immediate : Immediate}
    (h : resolve line pattern = .ok layout) (himmediate : layout.immediate = some immediate) :
    immediate.InBounds := by
  obtain ⟨tokens, _, _, H⟩ := resolve_eq_ok_iff.mp h
  have hslices : immediate.slices = Pattern.slices (Pattern.pieces tokens) := by
    rw [← H.slices_eq, slices, himmediate]
    rfl
  refine ⟨fun slice hslice => ?_, fun slice hslice => ?_⟩
  · exact (Pattern.slice_bounds H.legal (hslices ▸ hslice)).1
  · exact (Pattern.slice_bounds H.legal (hslices ▸ hslice)).2.2

/-- The immediate of a pattern is the number that its slices give, joined with `-2 ^ n` for each slice that ends below bit `n`
and whose sign is set. It lies between `-2 ^ 31` and `2 ^ 32`. With no sign set it is what the pattern gives without its minus
signs; with one sign, set and above all other slices, that sign counts as `-2 ^ n`. -/
theorem reconstruct_resolved {line : Nat} {pattern : String} {layout : Layout} {immediate : Immediate}
    (h : resolve line pattern = .ok layout) (himmediate : layout.immediate = some immediate) (word : Word) :
    immediate.reconstruct word =
        BitVec.ofNat 64 (immediate.unsignedPart word) ||| immediate.signPart word ∧
      (-2 ^ 31 ≤ (immediate.reconstruct word).toInt ∧ (immediate.reconstruct word).toInt < 2 ^ 32) ∧
      (∃ plain plainImmediate, resolve line (Pattern.withoutSigns pattern) = .ok plain ∧
        plain.immediate = some plainImmediate ∧
        ((∀ slice ∈ immediate.slices, slice.isNegative word = false) →
          immediate.reconstruct word = plainImmediate.reconstruct word)) ∧
      ∀ slice ∈ immediate.slices, slice.isNegative word = true →
        (∀ other ∈ immediate.slices, other ≠ slice →
          other.signExtend = false ∧ other.shift + other.width ≤ slice.shift) →
        (immediate.reconstruct word).toInt =
          immediate.unsignedPart word - 2 ^ (slice.shift + slice.width) := by
  have H := inBounds_of_resolve h himmediate
  refine ⟨Immediate.reconstruct_eq H.pos word,
    Immediate.toInt_reconstruct_bounds H word, ?_, ?_⟩
  · refine ⟨layout.unsigned, immediate.unsigned, resolve_withoutSigns h, ?_, fun hsigns => ?_⟩
    · rw [Layout.unsigned, himmediate]
      rfl
    · rw [Immediate.reconstruct_unsigned H, (Immediate.toInt_reconstruct_of_nonnegative H hsigns).1]
  · intro slice hslice hnegative hothers
    exact Immediate.toInt_reconstruct_of_top H hslice hnegative hothers

/-- A branch, whose immediate is scattered over the word. -/
def branchPattern : String :=
  "\x7b-12|10:5\x7d ..... ..... 000 \x7b4:1|11\x7d 1100011"

theorem reconstruct_resolved_branchPattern :
    ∃ layout immediate, resolve 1 branchPattern = .ok layout ∧ layout.immediate = some immediate ∧
      immediate.unsignedPart 0xfe000ee3 = 8188 ∧
      (immediate.reconstruct 0xfe000ee3).toInt = 8188 - 2 ^ 13 ∧
      ∃ plain plainImmediate, resolve 1 (Pattern.withoutSigns branchPattern) = .ok plain ∧
        plain.immediate = some plainImmediate ∧
        immediate.reconstruct 0x7e000ee3 = plainImmediate.reconstruct 0x7e000ee3 := by
  let immediate : Immediate :=
    ⟨[⟨7, 1, 11, false⟩, ⟨8, 4, 1, false⟩, ⟨25, 6, 5, false⟩, ⟨31, 1, 12, true⟩], true⟩
  obtain ⟨layout, hlayout, h⟩ : ∃ layout, resolve 1 branchPattern = .ok layout ∧
      decide (layout.immediate = some immediate) = true := exists_ok_of_any (by decide +kernel)
  have himmediate := of_decide_eq_true h
  have hvalue : immediate.unsignedPart 0xfe000ee3 = 8188 := by decide
  have htop := (reconstruct_resolved hlayout himmediate 0xfe000ee3).2.2.2
    ⟨31, 1, 12, true⟩ (by decide) (by decide) (by decide)
  obtain ⟨plain, plainImmediate, hplain, hplainImmediate, heq⟩ :=
    (reconstruct_resolved hlayout himmediate 0x7e000ee3).2.2.1
  refine ⟨layout, immediate, hlayout, himmediate, hvalue, ?_, plain, plainImmediate, hplain,
    hplainImmediate, heq (by decide)⟩
  rw [htop, hvalue]
  rfl

end Layout

end IsaForge
