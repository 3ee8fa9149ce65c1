import IsaForge.Proofs.ImmediateValue
import IsaForge.Proofs.Overlaps

/-!
Writing an immediate into a word. Where the slices of an immediate land on bits of their own and none lands above a sign,
every bit of a slice can be read off the immediate (`Separate.getLsbD_reconstruct`), and the immediate is what these bits
make of it (`Separate.getLsbD_reconstruct_eq`). `Immediate.scatter` puts the bits of a value where the slices read them.
The slices of an instruction stand apart from each other and from its fixed bits (`Instruction.Carries`), so that the word
that is put together in this way is one that the instruction accepts.
-/

namespace IsaForge

/-! ### Where slices land -/

namespace Slice

/-- Whether a slice lands on bit `k` of the immediate. -/
def lands (k : Nat) (slice : Slice) : Bool :=
  slice.shift ≤ k && k < slice.shift + slice.width

/-- No bit of the immediate belongs to both slices. -/
def Apart (a b : Slice) : Prop :=
  a.shift + a.width ≤ b.shift ∨ b.shift + b.width ≤ a.shift

instance : DecidableRel Apart := fun _ _ => inferInstanceAs (Decidable (_ ∨ _))

instance : Std.Symm Apart := ⟨fun _ _ => Or.symm⟩

theorem lands_iff {slice : Slice} {k : Nat} :
    slice.lands k = true ↔ slice.shift ≤ k ∧ k < slice.shift + slice.width := by
  rw [lands, Bool.and_eq_true, decide_eq_true_eq, decide_eq_true_eq]

theorem covers_iff {slice : Slice} {k : Nat} :
    slice.covers k = true ↔ slice.position ≤ k ∧ k < slice.position + slice.width := by
  rw [covers, Bool.and_eq_true, decide_eq_true_eq, decide_eq_true_eq]

theorem testBit_unsignedValue_iff {slice : Slice} {word : Word} {k : Nat} :
    (slice.unsignedValue word).testBit k = true ↔
      slice.lands k = true ∧ word.getLsbD (slice.position + (k - slice.shift)) = true := by
  rw [testBit_unsignedValue, lands_iff]
  simp only [Bool.and_eq_true, decide_eq_true_eq]
  constructor
  · rintro ⟨hle, hlt, hbit⟩
    exact ⟨⟨hle, by omega⟩, hbit⟩
  · rintro ⟨⟨hle, hlt⟩, hbit⟩
    exact ⟨hle, by omega, hbit⟩

end Slice

namespace Immediate

/-- The slices of an immediate land on bits of their own, and none lands above a slice whose sign is extended. -/
structure Separate (immediate : Immediate) : Prop where
  apart : immediate.slices.Pairwise Slice.Apart
  below : ∀ sign ∈ immediate.slices, sign.signExtend = true →
    ∀ slice ∈ immediate.slices, ¬ sign.shift + sign.width ≤ slice.shift

/-- The first bit above all slices of an immediate. -/
def top (immediate : Immediate) : Nat :=
  immediate.slices.foldr (fun slice bound => max (slice.shift + slice.width) bound) 0

/-- Bit `k` of the value for which the bits that slices land on are chosen by `choice`. All other bits are zero, but those
above the slices of a signed immediate repeat the highest one. -/
def chosenBit (immediate : Immediate) (choice : Nat → Bool) (k : Nat) : Bool :=
  if immediate.signed = true ∧ immediate.top ≤ k then choice (immediate.top - 1)
  else immediate.slices.any (Slice.lands k) && choice k

/-- The bits that slices land on can be chosen so that they make the given value. -/
def IsValue (immediate : Immediate) (value : BitVec 64) : Prop :=
  ∃ choice : Nat → Bool, ∀ k < 64, value.getLsbD k = immediate.chosenBit choice k

/-- The word in which the slices of an immediate hold the bits of a value, and all other bits are zero. -/
def scatter (immediate : Immediate) (value : BitVec 64) : Word :=
  immediate.slices.foldl (fun word slice =>
    word ||| (value.extractLsb' slice.shift slice.width).setWidth 32 <<< slice.position) 0

variable {immediate : Immediate}

theorem top_le_iff {n : Nat} :
    immediate.top ≤ n ↔ ∀ slice ∈ immediate.slices, slice.shift + slice.width ≤ n := by
  rw [top]
  induction immediate.slices with
  | nil => simp
  | cons slice slices ih => rw [List.foldr_cons, Nat.max_le, ih, List.forall_mem_cons]

theorem getLsbD_reconstruct_iff (B : immediate.InBounds) (word : Word) {k : Nat} (hk : k < 64) :
    (immediate.reconstruct word).getLsbD k = true ↔ ∃ slice ∈ immediate.slices,
      (slice.lands k = true ∧ word.getLsbD (slice.position + (k - slice.shift)) = true) ∨
        (slice.isNegative word = true ∧ slice.shift + slice.width ≤ k) := by
  rw [reconstruct, getLsbD_foldl_or, show (0 : BitVec 64).getLsbD k = false from BitVec.getLsbD_zero,
    Bool.false_or, List.any_eq_true]
  refine exists_congr fun slice => and_congr_right fun hslice => ?_
  rw [Slice.getLsbD_extract (B.pos slice hslice) word hk, Bool.or_eq_true,
    Slice.testBit_unsignedValue_iff, Bool.and_eq_true, decide_eq_true_eq]

namespace Separate

variable (S : immediate.Separate)
include S

theorem eq_or_apart {a b : Slice} (ha : a ∈ immediate.slices) (hb : b ∈ immediate.slices) :
    a = b ∨ Slice.Apart a b := by
  by_cases h : a = b
  · exact .inl h
  · exact .inr (S.apart.forall ha hb h)

/-- At a bit that a slice lands on, the immediate has the bit that the slice reads. -/
theorem getLsbD_reconstruct (B : immediate.InBounds) (word : Word) {slice : Slice}
    (hslice : slice ∈ immediate.slices) {k : Nat} (hk : slice.lands k = true) :
    (immediate.reconstruct word).getLsbD k = word.getLsbD (slice.position + (k - slice.shift)) := by
  have hlands := Slice.lands_iff.mp hk
  have hend := B.end_le slice hslice
  rw [Bool.eq_iff_iff, getLsbD_reconstruct_iff B word (by omega)]
  constructor
  · rintro ⟨other, hother, hbit⟩
    rcases S.eq_or_apart hslice hother with rfl | happart
    · rcases hbit with ⟨_, hbit⟩ | ⟨_, hle⟩
      · exact hbit
      · omega
    · rcases hbit with ⟨hother', _⟩ | ⟨hnegative, hle⟩
      · have := Slice.lands_iff.mp hother'
        rcases happart with h | h <;> omega
      · have hsign := (Bool.and_eq_true_iff.mp hnegative).1
        have := S.below other hother hsign slice hslice
        rcases happart with h | h <;> omega
  · intro hbit
    exact ⟨slice, hslice, .inl ⟨hk, hbit⟩⟩

/-- A sign that is extended stands above all other slices. -/
theorem top_eq {sign : Slice} (hsign : sign ∈ immediate.slices) (hextend : sign.signExtend = true) :
    immediate.top = sign.shift + sign.width := by
  apply Nat.le_antisymm
  · refine top_le_iff.mpr fun slice hslice => ?_
    have hbelow := S.below sign hsign hextend slice hslice
    rcases S.eq_or_apart hslice hsign with rfl | h | h <;> omega
  · exact top_le_iff.mp (Nat.le_refl _) sign hsign

section
variable (B : immediate.InBounds) (hsigned : immediate.signed = immediate.slices.any (·.signExtend))
include B hsigned

/-- The highest bit below the top of a signed immediate is the last one of the slice whose sign is extended. -/
theorem exists_sign (h : immediate.signed = true) :
    ∃ sign ∈ immediate.slices, sign.signExtend = true ∧ immediate.top = sign.shift + sign.width ∧
      sign.lands (immediate.top - 1) = true := by
  rw [hsigned, List.any_eq_true] at h
  obtain ⟨sign, hsign, hextend⟩ := h
  have htop := S.top_eq hsign hextend
  have hpos := B.pos sign hsign
  exact ⟨sign, hsign, hextend, htop, Slice.lands_iff.mpr (by omega)⟩

theorem chosenBit_congr {choice choice' : Nat → Bool}
    (h : ∀ slice ∈ immediate.slices, ∀ k, slice.lands k = true → choice k = choice' k) (k : Nat) :
    immediate.chosenBit choice k = immediate.chosenBit choice' k := by
  unfold chosenBit
  split
  · next hhigh =>
    obtain ⟨sign, hsign, _, _, hlands⟩ := S.exists_sign B hsigned hhigh.1
    exact h sign hsign _ hlands
  · cases hany : immediate.slices.any (Slice.lands k) with
    | false => rfl
    | true =>
      obtain ⟨slice, hslice, hlands⟩ := List.any_eq_true.mp hany
      rw [h slice hslice k hlands]

/-- The immediate in a word is what the bits of its slices make of it. -/
theorem getLsbD_reconstruct_eq (word : Word) {k : Nat} (hk : k < 64) :
    (immediate.reconstruct word).getLsbD k =
      immediate.chosenBit (immediate.reconstruct word).getLsbD k := by
  unfold chosenBit
  split
  · next hhigh =>
    obtain ⟨hsign?, hle⟩ := hhigh
    obtain ⟨sign, hsign, hextend, htop, hlands⟩ := S.exists_sign B hsigned hsign?
    have hpos := B.pos sign hsign
    have hsource : sign.position + (immediate.top - 1 - sign.shift) = sign.sourceHi := by
      rw [Slice.sourceHi]
      omega
    rw [S.getLsbD_reconstruct B word hsign hlands, hsource, Bool.eq_iff_iff,
      getLsbD_reconstruct_iff B word hk]
    constructor
    · rintro ⟨slice, hslice, ⟨hlands', _⟩ | ⟨hnegative, _⟩⟩
      · have := Slice.lands_iff.mp hlands'
        have := top_le_iff.mp (Nat.le_refl _) slice hslice
        omega
      · -- Two signs that are extended would both end at the top.
        obtain ⟨hextend', hbit⟩ := Bool.and_eq_true_iff.mp hnegative
        have htop' := S.top_eq hslice hextend'
        have hpos' := B.pos slice hslice
        rcases S.eq_or_apart hslice hsign with rfl | h | h
        · exact hbit
        · omega
        · omega
    · intro hbit
      exact ⟨sign, hsign, .inr ⟨by rw [Slice.isNegative, hextend, hbit]; rfl, htop ▸ hle⟩⟩
  · next hlow =>
    cases hany : immediate.slices.any (Slice.lands k) with
    | true => rfl
    | false =>
      rw [Bool.false_and, ← Bool.not_eq_true, getLsbD_reconstruct_iff B word hk]
      rintro ⟨slice, hslice, ⟨hlands, _⟩ | ⟨hnegative, hle⟩⟩
      · exact absurd hlands (List.any_eq_false.mp hany slice hslice)
      · have hextend := (Bool.and_eq_true_iff.mp hnegative).1
        refine hlow ⟨?_, S.top_eq hslice hextend ▸ hle⟩
        rw [hsigned]
        exact List.any_eq_true.mpr ⟨slice, hslice, hextend⟩

/-- Two words have the same immediate exactly if they agree on the bits that its slices read. -/
theorem reconstruct_eq_iff (word word' : Word) :
    immediate.reconstruct word = immediate.reconstruct word' ↔
      ∀ slice ∈ immediate.slices, ∀ k, slice.covers k = true → word.getLsbD k = word'.getLsbD k := by
  constructor
  · intro h slice hslice k hk
    have hcovers := Slice.covers_iff.mp hk
    have hlands : slice.lands (slice.shift + (k - slice.position)) = true :=
      Slice.lands_iff.mpr (by omega)
    have hbit := S.getLsbD_reconstruct B word hslice hlands
    have hbit' := S.getLsbD_reconstruct B word' hslice hlands
    have hsource : slice.position + (slice.shift + (k - slice.position) - slice.shift) = k := by omega
    rw [hsource] at hbit hbit'
    rw [← hbit, ← hbit', h]
  · intro h
    refine BitVec.eq_of_getLsbD_eq fun k hk => ?_
    rw [S.getLsbD_reconstruct_eq B hsigned word hk, S.getLsbD_reconstruct_eq B hsigned word' hk]
    refine S.chosenBit_congr B hsigned (fun slice hslice j hj => ?_) k
    have hlands := Slice.lands_iff.mp hj
    rw [S.getLsbD_reconstruct B word hslice hj, S.getLsbD_reconstruct B word' hslice hj]
    exact h slice hslice _ (Slice.covers_iff.mpr (by omega))

/-- A value that bits can be chosen for is what its own bits make of it. -/
theorem getLsbD_value {value : BitVec 64} (h : immediate.IsValue value) {k : Nat} (hk : k < 64) :
    value.getLsbD k = immediate.chosenBit value.getLsbD k := by
  obtain ⟨choice, hchoice⟩ := h
  rw [hchoice k hk]
  refine S.chosenBit_congr B hsigned (fun slice hslice j hj => ?_) k
  have hlands := Slice.lands_iff.mp hj
  have hend := B.end_le slice hslice
  have htop : ¬ immediate.top ≤ j := fun hle => by
    have := top_le_iff.mp hle slice hslice
    omega
  have hany : immediate.slices.any (Slice.lands j) = true := List.any_eq_true.mpr ⟨slice, hslice, hj⟩
  rw [hchoice j (by omega), chosenBit, if_neg fun hhigh => htop hhigh.2, hany, Bool.true_and]

theorem reconstruct_eq_of_lands {value : BitVec 64} (hvalue : immediate.IsValue value) {word : Word}
    (h : ∀ slice ∈ immediate.slices, ∀ k, slice.lands k = true →
      word.getLsbD (slice.position + (k - slice.shift)) = value.getLsbD k) :
    immediate.reconstruct word = value := by
  refine BitVec.eq_of_getLsbD_eq fun k hk => ?_
  rw [S.getLsbD_reconstruct_eq B hsigned word hk, S.getLsbD_value B hsigned hvalue hk]
  refine S.chosenBit_congr B hsigned (fun slice hslice j hj => ?_) k
  rw [S.getLsbD_reconstruct B word hslice hj, h slice hslice j hj]

end

end Separate

/-! ### Scattered bits -/

theorem getLsbD_scatter_iff (value : BitVec 64) {k : Nat} (hk : k < 32) :
    (immediate.scatter value).getLsbD k = true ↔ ∃ slice ∈ immediate.slices,
      slice.covers k = true ∧ value.getLsbD (slice.shift + (k - slice.position)) = true := by
  rw [scatter, getLsbD_foldl_or, show (0 : Word).getLsbD k = false from BitVec.getLsbD_zero,
    Bool.false_or, List.any_eq_true]
  refine exists_congr fun slice => and_congr_right fun _ => ?_
  rw [Slice.covers_iff]
  simp only [BitVec.getLsbD_shiftLeft, BitVec.getLsbD_setWidth, BitVec.getLsbD_extractLsb',
    Bool.and_eq_true, decide_eq_true_eq, Bool.not_eq_true', decide_eq_false_iff_not]
  constructor
  · rintro ⟨⟨_, hle⟩, _, hlt, hbit⟩
    exact ⟨by omega, hbit⟩
  · rintro ⟨hcovers, hbit⟩
    exact ⟨⟨hk, by omega⟩, by omega, by omega, hbit⟩

end Immediate

/-! ### Instructions -/

/-- How an instruction holds its immediate: each slice has bits of the word for itself, which are no fixed ones, and the
immediate is signed if a slice extends its sign. -/
structure Instruction.Carries (i : Instruction) (immediate : Immediate) : Prop where
  inBounds : immediate.InBounds
  signed : immediate.signed = immediate.slices.any (·.signExtend)
  ascending : immediate.slices.Pairwise fun a b => a.position + a.width ≤ b.position
  within : ∀ slice ∈ immediate.slices, slice.position + slice.width ≤ 32
  free : ∀ slice ∈ immediate.slices, ∀ k, slice.covers k = true → i.mask.getLsbD k = false

theorem Layout.Realizes.mask_of_covers {layout : Layout} {row : List Piece} (H : layout.Realizes row)
    {slice : Slice} (hslice : slice ∈ Pattern.slices row) {k : Nat} (hk : slice.covers k = true) :
    layout.mask.getLsbD k = false := by
  have hcount : 0 < (Pattern.slices row).countP (Slice.covers k) :=
    List.countP_pos_iff.mpr ⟨slice, hslice, hk⟩
  have hpartition := Pattern.partition row k
  rw [H.getLsbD_mask]
  cases hfixed : (Pattern.cellAt row k).any Piece.isFixed with
  | false => rfl
  | true =>
    rw [hfixed, Bool.toNat_true] at hpartition
    split at hpartition <;> omega

theorem Table.Resolves.carries {fields : FieldRegistry} {controlFlow : List String} {record : Record}
    {i : Instruction} (h : Resolves fields controlFlow record i) {immediate : Immediate}
    (himmediate : i.immediate = some immediate) : i.Carries immediate := by
  obtain ⟨layout, slots, hlayout, _, rfl⟩ := h
  obtain ⟨tokens, _, _, H⟩ := Layout.resolve_eq_ok_iff.mp hlayout
  have hlayoutImmediate : layout.immediate = some immediate := himmediate
  have hslices : immediate.slices = Pattern.slices (Pattern.pieces tokens) := by
    rw [← H.slices_eq, Layout.slices, hlayoutImmediate]
    rfl
  have hsigned : immediate.signed = immediate.slices.any (·.signExtend) := by
    have hplan := H.immediate.symm.trans hlayoutImmediate
    rw [Layout.immediateOf] at hplan
    split at hplan
    · cases hplan
    · cases hplan
      rfl
  refine ⟨Layout.inBounds_of_resolve hlayout hlayoutImmediate, hsigned, ?_, ?_, ?_⟩
  · rw [hslices]
    exact Pattern.pairwise_slices _
  · intro slice hslice
    rw [hslices] at hslice
    have hend := (Pattern.slice_bounds H.legal hslice).2.1
    rw [H.width] at hend
    exact Nat.le_trans hend (Layout.bits_le layout.width)
  · intro slice hslice k hk
    rw [hslices] at hslice
    exact H.mask_of_covers hslice hk

namespace Instruction

/-- The word of an instruction whose immediate holds the given value. All bits that are neither fixed nor part of the
immediate are zero. -/
def encode (i : Instruction) (immediate : Immediate) (value : BitVec 64) : Word :=
  i.matchValue ||| immediate.scatter value

variable {i : Instruction} {immediate : Immediate}

theorem Carries.eq_of_covers (C : i.Carries immediate) {a b : Slice} (ha : a ∈ immediate.slices)
    (hb : b ∈ immediate.slices) {k : Nat} (hak : a.covers k = true) (hbk : b.covers k = true) : a = b := by
  have hcovers := Slice.covers_iff.mp hak
  have hcovers' := Slice.covers_iff.mp hbk
  obtain ⟨m, hm, rfl⟩ := List.getElem_of_mem ha
  obtain ⟨n, hn, rfl⟩ := List.getElem_of_mem hb
  have hascending := List.pairwise_iff_getElem.mp C.ascending
  rcases Nat.lt_trichotomy m n with hlt | rfl | hlt
  · have := hascending m n hm hn hlt
    omega
  · rfl
  · have := hascending n m hn hm hlt
    omega

theorem Carries.accepts_encode (C : i.Carries immediate) (H : i.WellFormed) (value : BitVec 64) :
    i.accepts (i.encode immediate value) = true := by
  rw [accepts_iff H]
  intro k hk
  have hscatter : (immediate.scatter value).getLsbD k = false := by
    rw [← Bool.not_eq_true, Immediate.getLsbD_scatter_iff value (BitVec.lt_of_getLsbD hk)]
    rintro ⟨slice, hslice, hcovers, _⟩
    rw [C.free slice hslice k hcovers] at hk
    cases hk
  rw [encode, BitVec.getLsbD_or, hscatter, Bool.or_false]

theorem Carries.getLsbD_encode (C : i.Carries immediate) (H : i.WellFormed) (value : BitVec 64)
    {slice : Slice} (hslice : slice ∈ immediate.slices) {k : Nat} (hk : slice.covers k = true) :
    (i.encode immediate value).getLsbD k = value.getLsbD (slice.shift + (k - slice.position)) := by
  have hcovers := Slice.covers_iff.mp hk
  have hwithin := C.within slice hslice
  have hmatch : i.matchValue.getLsbD k = false := by
    rw [← Bool.not_eq_true]
    intro hbit
    have hmask := H.mask_of_match hbit
    rw [C.free slice hslice k hk] at hmask
    cases hmask
  rw [encode, BitVec.getLsbD_or, hmatch, Bool.false_or, Bool.eq_iff_iff,
    Immediate.getLsbD_scatter_iff value (by omega)]
  constructor
  · rintro ⟨other, hother, hcovers', hbit⟩
    rwa [C.eq_of_covers hslice hother hk hcovers']
  · intro hbit
    exact ⟨slice, hslice, hk, hbit⟩

theorem Carries.reconstruct_encode (C : i.Carries immediate) (H : i.WellFormed)
    (S : immediate.Separate) {value : BitVec 64} (hvalue : immediate.IsValue value) :
    immediate.reconstruct (i.encode immediate value) = value := by
  refine S.reconstruct_eq_of_lands C.inBounds C.signed hvalue fun slice hslice k hk => ?_
  have hlands := Slice.lands_iff.mp hk
  have hcovers : slice.covers (slice.position + (k - slice.shift)) = true :=
    Slice.covers_iff.mpr (by omega)
  rw [C.getLsbD_encode H value hslice hcovers]
  congr 1
  omega

end Instruction

/-- Where the slices of an immediate land on bits of their own, and none above a sign, two words have the same immediate
exactly if they agree on the bits that the slices read. The values that some word of the instruction has are those that the
bits of the slices can be chosen for. -/
theorem reconstruct_separate {records : List Record} {controlFlow : List String} {table : Table}
    (h : Table.ofRecords records controlFlow = .ok table) {i : Instruction} (hi : i ∈ table.instructions)
    {immediate : Immediate} (himmediate : i.immediate = some immediate) (S : immediate.Separate) :
    (∀ word word' : Word, immediate.reconstruct word = immediate.reconstruct word' ↔
      ∀ slice ∈ immediate.slices, ∀ k, slice.covers k = true → word.getLsbD k = word'.getLsbD k) ∧
    ∀ value : BitVec 64, immediate.IsValue value ↔
      ∃ word, i.accepts word = true ∧ immediate.reconstruct word = value := by
  obtain ⟨_, D⟩ := Table.ofRecords_describes h
  have H := D.wellFormed.instructions i hi
  rw [D.instructions, Table.mem_arrange] at hi
  obtain ⟨_, _, hresolves⟩ := exists_left_of_forall₂ D.resolves hi
  have C := hresolves.carries himmediate
  refine ⟨S.reconstruct_eq_iff C.inBounds C.signed, fun value => ⟨fun hvalue => ?_, ?_⟩⟩
  · exact ⟨i.encode immediate value, C.accepts_encode H value, C.reconstruct_encode H S hvalue⟩
  · rintro ⟨word, _, rfl⟩
    exact ⟨_, fun k hk => S.getLsbD_reconstruct_eq C.inBounds C.signed word hk⟩

/-- A jump, whose immediate has its slices in another order than the word. -/
def jumpRecord : Record :=
  { line := 1, provenance := {}, opcode := "jal", assembly := "", attributes := [],
    bitPattern := "\x7b-20|10:1|11|19:12\x7d rd[5] 1101111", operands := "x[rd]", action := "" }

theorem reconstruct_separate_jumpRecord :
    ∃ table i immediate, Table.ofRecords [jumpRecord] [] = .ok table ∧ i ∈ table.instructions ∧
      i.immediate = some immediate ∧ immediate.Separate ∧
      (∃ word, i.accepts word = true ∧ immediate.reconstruct word = -4) ∧
      immediate.reconstruct 0xffdff06f = immediate.reconstruct 0xffdff0ef ∧
      immediate.reconstruct 0xffdff06f ≠ immediate.reconstruct 0x7fdff06f := by
  let immediate : Immediate :=
    ⟨[⟨12, 8, 12, false⟩, ⟨20, 1, 11, false⟩, ⟨21, 10, 1, false⟩, ⟨31, 1, 20, true⟩], true⟩
  obtain ⟨table, htable, hsome⟩ : ∃ table, Table.ofRecords [jumpRecord] [] = .ok table ∧
      (table.instructions.any fun i => decide (i.immediate = some immediate)) = true :=
    exists_ok_of_any (by decide +kernel)
  obtain ⟨i, hi, himmediate⟩ := List.any_eq_true.mp hsome
  have himmediate := of_decide_eq_true himmediate
  have S : immediate.Separate := ⟨by decide, by decide⟩
  obtain ⟨hwords, hvalues⟩ := reconstruct_separate htable hi himmediate S
  refine ⟨table, i, immediate, htable, hi, himmediate, S, ?_, ?_, ?_⟩
  · exact (hvalues (-4)).mp ⟨(-4 : BitVec 64).getLsbD, by decide⟩
  · refine (hwords _ _).mpr fun slice hslice k hk => ?_
    -- The two words differ in the register only, which is below bit 12.
    have hbits : ∀ j < 32, 12 ≤ j → (0xffdff06f : Word).getLsbD j = (0xffdff0ef : Word).getLsbD j := by
      decide
    have hsource : ∀ slice ∈ immediate.slices, 12 ≤ slice.position ∧ slice.position + slice.width ≤ 32 := by
      decide
    have hwithin := hsource slice hslice
    have hcovers := Slice.covers_iff.mp hk
    exact hbits k (by omega) (by omega)
  · intro heq
    exact absurd ((hwords _ _).mp heq ⟨31, 1, 20, true⟩ (by decide) 31 (by decide)) (by decide)

end IsaForge
