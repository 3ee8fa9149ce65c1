import IsaForge.Proofs.GeneratedDecoder
import IsaForge.Proofs.Overlaps

/-!
Which bits of a word decoding reads. An instruction is accepted, and its registers and its immediate are read, by the bits
that it occupies and no others (`accepts_congr`, `decodedIn_congr`). A compressed instruction therefore depends on the low
half of the word alone; as the compressed instructions are tried first, more bytes or another high half do not change what
was found.
-/

namespace IsaForge

/-- The two words have the same lowest `count` bits. -/
def AgreeBelow (count : Nat) (word word' : Word) : Prop :=
  ∀ k < count, word.getLsbD k = word'.getLsbD k

namespace AgreeBelow

variable {count : Nat} {word word' : Word}

theorem of_setWidth_eq (h : word.setWidth count = word'.setWidth count) :
    AgreeBelow count word word' := by
  intro k hk
  have hbit := congrArg (BitVec.getLsbD · k) h
  simpa [hk] using hbit

theorem symm (h : AgreeBelow count word word') : AgreeBelow count word' word :=
  fun k hk => (h k hk).symm

theorem extract_eq (h : AgreeBelow count word word') {position width : Nat}
    (hend : position + width ≤ count) :
    word.extractLsb' position width = word'.extractLsb' position width := by
  refine BitVec.eq_of_getLsbD_eq fun k hk => ?_
  rw [BitVec.getLsbD_extractLsb', BitVec.getLsbD_extractLsb', h (position + k) (by omega)]

end AgreeBelow

/-! ### Instructions -/

theorem Slot.Fits.extract_congr {width : Width} {slot : Slot} (hfits : slot.Fits width)
    {word word' : Word} (h : AgreeBelow width.bits word word') :
    slot.extract word = slot.extract word' := by
  cases slot with
  | none | literal _ => rfl
  | field registerClass range offset =>
    obtain ⟨hle, hhi, _⟩ := hfits
    rw [extract, extract, h.extract_eq (show range.lo + (range.hi - range.lo + 1) ≤ _ by omega)]

theorem Slice.Fits.extract_congr {width : Width} {slice : Slice} (hfits : slice.Fits width)
    {word word' : Word} (h : AgreeBelow width.bits word word') :
    slice.extract word = slice.extract word' := by
  obtain ⟨_, hend, _⟩ := hfits
  rw [extract, extract, h.extract_eq hend]

theorem Immediate.reconstruct_congr {width : Width} {immediate : Immediate}
    (hfits : ∀ slice ∈ immediate.slices, slice.Fits width) {word word' : Word}
    (h : AgreeBelow width.bits word word') :
    immediate.reconstruct word = immediate.reconstruct word' := by
  rw [reconstruct, reconstruct]
  refine List.foldl_ext _ _ _ fun value slice hslice => ?_
  rw [(hfits slice hslice).extract_congr h]

namespace Instruction.WellFormed

variable {i : Instruction} (H : i.WellFormed) {word word' : Word}
include H

theorem accepts_congr (h : AgreeBelow i.width.bits word word') :
    i.accepts word = i.accepts word' := by
  rw [Bool.eq_iff_iff, accepts_iff H, accepts_iff H]
  refine forall_congr' fun k => imp_congr_right fun hk => ?_
  rw [h k (H.mask_below hk)]

theorem registers_congr (h : AgreeBelow i.width.bits word word') :
    i.slots.map (·.extract word) = i.slots.map (·.extract word') := by
  have hslot : ∀ slot ∈ i.slots.toList, slot.extract word = slot.extract word' :=
    fun slot hslot => (H.slots slot hslot).extract_congr h
  simp only [PerSlot.toList, List.forall_mem_cons] at hslot
  obtain ⟨hrd, hrs1, hrs2, hrs3, _⟩ := hslot
  rw [PerSlot.map, PerSlot.map, hrd, hrs1, hrs2, hrs3]

/-- An instruction reads no bits but its own. -/
theorem decodedIn_congr (h : AgreeBelow i.width.bits word word') :
    i.decodedIn word = i.decodedIn word' := by
  have himmediate : i.immediate.elim 0 (·.reconstruct word) =
      i.immediate.elim 0 (·.reconstruct word') := by
    cases hi : i.immediate with
    | none => rfl
    | some immediate => exact Immediate.reconstruct_congr (H.slices immediate hi) h
  rw [decodedIn, decodedIn, H.registers_congr h, himmediate]

end Instruction.WellFormed

/-! ### Tables -/

namespace Table

variable {table : Table} {word word' : Word} {available available' : Nat} {i : Instruction}

theorem select?_spec (h : table.select? word available = some i) :
    i ∈ table.instructions ∧ i.width.bytes ≤ available ∧ i.accepts word = true := by
  have hfound := List.find?_some h
  rw [Bool.and_eq_true, decide_eq_true_eq] at hfound
  exact ⟨List.mem_of_find?_eq_some h, hfound⟩

theorem select?_width (h : table.select? word available = some i) (havailable : available < 4) :
    i.width = .compressed := by
  obtain ⟨_, hfits, _⟩ := select?_spec h
  cases hwidth : i.width with
  | compressed => rfl
  | standard =>
    rw [hwidth] at hfits
    exact absurd hfits (Nat.not_le_of_lt havailable)

theorem decode_of_select? (h : table.select? word available = some i) :
    table.decode word available = i.decodedIn word := by
  rw [decode_eq, h, Option.elim_some]

theorem mem_compressed (hi : i ∈ table.compressed) :
    i ∈ table.instructions ∧ i.width = .compressed := by
  have hwidth : decide (i.width = .compressed) = true :=
    List.mem_takeWhile_imp (p := fun i : Instruction => decide (i.width = .compressed)) hi
  exact ⟨(List.takeWhile_sublist _).subset hi, of_decide_eq_true hwidth⟩

end Table

namespace Table.WellFormed

variable {table : Table} (H : table.WellFormed) {word word' : Word} {available available' : Nat}
  {i : Instruction}
include H

theorem find?_compressed_congr (h : AgreeBelow 16 word word') :
    table.compressed.find? (·.accepts word) = table.compressed.find? (·.accepts word') := by
  refine List.find?_congr fun i hi => ?_
  obtain ⟨hmem, hwidth⟩ := mem_compressed hi
  exact (H.instructions i hmem).accepts_congr (hwidth ▸ h)

/-- With less than a full word, only the compressed instructions are tried. -/
theorem select?_of_lt (havailable : available < 4) :
    table.select? word available =
      if 2 ≤ available then table.compressed.find? (·.accepts word) else none := by
  rw [H.select?_eq, if_neg (Nat.not_le_of_lt havailable), Option.or_none]

/-- A compressed instruction is found wherever there are bytes for it, whatever else is there. -/
theorem select?_compressed (hwidth : i.width = .compressed) :
    table.select? word available = some i ↔
      2 ≤ available ∧ table.compressed.find? (·.accepts word) = some i := by
  rw [H.select?_eq, Option.or_eq_some_iff]
  constructor
  · rintro (h | ⟨_, h⟩)
    · rwa [Option.ite_none_right_eq_some] at h
    · rw [Option.ite_none_right_eq_some] at h
      have hmem := List.mem_of_find?_eq_some h.2
      rw [H.standard_eq, List.mem_filter, hwidth] at hmem
      exact absurd hmem.2 (by decide)
  · rintro ⟨havailable, hfound⟩
    rw [if_pos havailable]
    exact .inl hfound

theorem select?_low_half (h : AgreeBelow 16 word word') (havailable : available < 4) :
    table.select? word available = table.select? word' available := by
  rw [H.select?_of_lt havailable, H.select?_of_lt havailable, H.find?_compressed_congr h]

theorem select?_more (h : table.select? word available = some i) (hle : available ≤ available') :
    table.select? word available' = some i := by
  obtain ⟨_, hfits, _⟩ := select?_spec h
  cases hwidth : i.width with
  | compressed =>
    rw [H.select?_compressed hwidth] at h ⊢
    exact ⟨Nat.le_trans h.1 hle, h.2⟩
  | standard =>
    -- Both widths are tried already, so that nothing is left that more bytes could add.
    rw [hwidth] at hfits
    have hfour : 4 ≤ available := hfits
    rw [H.select?_eq, if_pos (by omega), if_pos hfour] at h
    rw [H.select?_eq, if_pos (by omega), if_pos (by omega), h]

end Table.WellFormed

/-- Decoding with less than a full word depends on the low half of the word alone. A compressed instruction that is found
is found in every word with that low half, whatever number of bytes is valid, with the same registers and the same
immediate. An instruction that is found is found alike if more bytes are valid. -/
theorem decode_low_half {records : List Record} {controlFlow : List String} {table : Table}
    (h : Table.ofRecords records controlFlow = .ok table) :
    (∀ word word' : Word, word.setWidth 16 = word'.setWidth 16 → ∀ available < 4,
      table.decode word available = table.decode word' available) ∧
    (∀ word available i, (table.decode word available).entry = .instruction i →
      i.width = .compressed → ∀ word' : Word, word.setWidth 16 = word'.setWidth 16 →
        ∀ available' ≥ 2, table.decode word' available' = table.decode word available) ∧
    ∀ word available i, (table.decode word available).entry = .instruction i →
      ∀ available' ≥ available, table.decode word available' = table.decode word available := by
  have H := Table.ofRecords_wellFormed h
  have hcongr : ∀ {i word word'}, i ∈ table.instructions → i.width = .compressed →
      AgreeBelow 16 word word' → i.decodedIn word = i.decodedIn word' :=
    fun hi hwidth hagree => (H.instructions _ hi).decodedIn_congr (hwidth ▸ hagree)
  refine ⟨fun word word' hword available havailable => ?_,
    fun word available i hi hwidth word' hword available' havailable' => ?_,
    fun word available i hi available' hle => ?_⟩
  · have hagree := AgreeBelow.of_setWidth_eq hword
    rw [Table.decode_eq, Table.decode_eq, ← H.select?_low_half hagree havailable]
    cases hi : table.select? word available with
    | none => rfl
    | some i => exact hcongr (Table.select?_spec hi).1 (Table.select?_width hi havailable) hagree
  · have hagree := AgreeBelow.of_setWidth_eq hword
    rw [Table.entry_decode_eq_iff] at hi
    have hi' : table.select? word' available' = some i := by
      have hfound := ((H.select?_compressed hwidth).mp hi).2
      exact (H.select?_compressed hwidth).mpr
        ⟨havailable', (H.find?_compressed_congr hagree).symm.trans hfound⟩
    rw [Table.decode_of_select? hi, Table.decode_of_select? hi']
    exact hcongr (Table.select?_spec hi).1 hwidth hagree.symm
  · rw [Table.entry_decode_eq_iff] at hi
    rw [Table.decode_of_select? hi, Table.decode_of_select? (H.select?_more hi hle)]

theorem decode_low_half_immediateRecords :
    ∃ table andi addi, Table.ofRecords immediateRecords [] = .ok table ∧
      (table.decode 0x9bf9 2).entry = .instruction andi ∧ andi.width = .compressed ∧
      (table.decode 0xfff10093 4).entry = .instruction addi ∧
      table.decode 0xfff10093 3 = table.decode 0x00010093 3 ∧
      table.decode 0x12349bf9 4 = table.decode 0x9bf9 2 ∧
      table.decode 0xfff10093 9 = table.decode 0xfff10093 4 := by
  obtain ⟨table, htable, hfound⟩ : ∃ table, Table.ofRecords immediateRecords [] = .ok table ∧
      ((table.select? 0x9bf9 2).any (fun i => decide (i.width = .compressed)) &&
        (table.select? 0xfff10093 4).isSome) = true :=
    exists_ok_of_any (by decide +kernel)
  rw [Bool.and_eq_true, Option.any_eq_true, Option.isSome_iff_exists] at hfound
  obtain ⟨⟨andi, handi, hwidth⟩, addi, haddi⟩ := hfound
  have hwidth := of_decide_eq_true hwidth
  have handi := Table.entry_decode_eq_iff.mpr handi
  have haddi := Table.entry_decode_eq_iff.mpr haddi
  obtain ⟨hlow, hcompressed, hmore⟩ := decode_low_half htable
  exact ⟨table, andi, addi, htable, handi, hwidth, haddi, hlow _ _ (by decide) 3 (by decide),
    hcompressed _ _ andi handi hwidth _ (by decide) 4 (by decide), hmore _ _ addi haddi 9 (by decide)⟩

end IsaForge
