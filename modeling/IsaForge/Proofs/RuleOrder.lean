import IsaForge.Proofs.Overlaps

/-!
Tables without overlaps. The instructions that accept a word then have one width, and each fixes more bits than the next
one (`pairwise_accepting`), so that decoding finds the one that fixes the most (`select?_eq_some_iff`). Which one that is
does not depend on the order of the records.
-/

namespace IsaForge

/-! ### Strict inclusion -/

/-- Every bit of the first mask is one of the second, which has others. -/
def MaskBelow (a b : Word) : Prop :=
  MaskWithin a b ∧ ¬ MaskWithin b a

theorem MaskBelow.asymm {a b : Word} (h : MaskBelow a b) : ¬ MaskBelow b a :=
  fun h' => h.2 h'.1

namespace Overlap

theorem among_eq_nil_iff {instructions : List Instruction} :
    among instructions = [] ↔ instructions.Pairwise fun a b => kind? a b = none := by
  induction instructions with
  | nil => exact ⟨fun _ => .nil, fun _ => rfl⟩
  | cons earlier rest ih =>
    rw [among, List.append_eq_nil_iff, ih, List.pairwise_cons, List.filterMap_eq_nil_iff]
    simp only [Option.map_eq_none_iff]

/-- Of two instructions that accept a word and do not overlap, the earlier one fixes more bits. -/
theorem below_of_kind?_eq_none {a b : Instruction} (Ha : a.WellFormed) (Hb : b.WellFormed)
    (hkind : kind? a b = none) {word : Word} (ha : a.accepts word = true)
    (hb : b.accepts word = true) : a.width = b.width ∧ MaskBelow b.mask a.mask := by
  have hmeet : ∃ word, a.accepts word = true ∧ b.accepts word = true := ⟨word, ha, hb⟩
  have hspecial : a.width = b.width ∧ Specializes a b := by
    by_contra hnot
    have := (isSome_kind?_iff Ha Hb).mpr ⟨hmeet, hnot⟩
    rw [hkind] at this
    cases this
  have hagree := (Instruction.exists_accepts_iff Ha Hb).mp hmeet
  exact ⟨hspecial.1, (specializes_iff Ha Hb hagree).mp hspecial.2⟩

end Overlap

namespace Table

variable {table : Table} {word : Word} {available : Nat} {i : Instruction}

/-- The instructions that accept a word, in the order of the table. -/
def accepting (table : Table) (word : Word) : List Instruction :=
  table.instructions.filter (·.accepts word)

theorem mem_accepting : i ∈ table.accepting word ↔ i ∈ table.instructions ∧ i.accepts word = true :=
  List.mem_filter

theorem WellFormed.pairwise_accepting (H : table.WellFormed) (hoverlaps : table.overlaps = [])
    (word : Word) :
    (table.accepting word).Pairwise fun a b => a.width = b.width ∧ MaskBelow b.mask a.mask := by
  have hnone := (Overlap.among_eq_nil_iff.mp hoverlaps).filter (·.accepts word)
  refine hnone.imp_of_mem fun {a b} ha hb hkind => ?_
  obtain ⟨ha, hacc⟩ := mem_accepting.mp ha
  obtain ⟨hb, hbcc⟩ := mem_accepting.mp hb
  exact Overlap.below_of_kind?_eq_none (H.instructions a ha) (H.instructions b hb) hkind hacc hbcc

/-- The instruction accepts the word, and any other one that does has its width and fixes fewer bits. -/
structure IsLargest (table : Table) (word : Word) (i : Instruction) : Prop where
  mem : i ∈ table.instructions
  accepts : i.accepts word = true
  below : ∀ m ∈ table.instructions, m.accepts word = true → m ≠ i →
    m.width = i.width ∧ MaskBelow m.mask i.mask

theorem IsLargest.unique {j : Instruction} (hi : table.IsLargest word i)
    (hj : table.IsLargest word j) : i = j := by
  by_contra hne
  have hij := (hj.below i hi.mem hi.accepts hne).2
  exact hij.asymm (hi.below j hj.mem hj.accepts (Ne.symm hne)).2

theorem WellFormed.isLargest_head (H : table.WellFormed) (hoverlaps : table.overlaps = [])
    {rest : List Instruction} (hfirst : table.accepting word = i :: rest) :
    table.IsLargest word i := by
  have hchain := H.pairwise_accepting hoverlaps word
  have hmem : i ∈ table.accepting word := hfirst ▸ List.mem_cons_self
  rw [hfirst] at hchain
  obtain ⟨hi, hacc⟩ := mem_accepting.mp hmem
  refine ⟨hi, hacc, fun m hm hmcc hne => ?_⟩
  have hcons : m ∈ i :: rest := hfirst ▸ mem_accepting.mpr ⟨hm, hmcc⟩
  have hrest := (List.mem_cons.mp hcons).resolve_left hne
  obtain ⟨hwidth, hbelow⟩ := (List.pairwise_cons.mp hchain).1 m hrest
  exact ⟨hwidth.symm, hbelow⟩

theorem select?_eq_find?_accepting (table : Table) (word : Word) (available : Nat) :
    table.select? word available =
      (table.accepting word).find? fun i => i.width.bytes ≤ available := by
  rw [select?, accepting, List.find?_filter]
  congr 1
  funext i
  cases i.accepts word <;> simp

/-- Decoding finds the instruction that fixes the most bits, if there are enough bytes for it. -/
theorem WellFormed.select?_eq_some_iff (H : table.WellFormed) (hoverlaps : table.overlaps = []) :
    table.select? word available = some i ↔
      table.IsLargest word i ∧ i.width.bytes ≤ available := by
  rw [select?_eq_find?_accepting]
  cases hfirst : table.accepting word with
  | nil =>
    refine ⟨nofun, fun ⟨hi, _⟩ => ?_⟩
    have := mem_accepting.mpr ⟨hi.mem, hi.accepts⟩
    rw [hfirst] at this
    cases this
  | cons j rest =>
    have hj := H.isLargest_head hoverlaps hfirst
    have hhead : j.width.bytes ≤ available →
        (j :: rest).find? (fun i => i.width.bytes ≤ available) = some j :=
      fun hfits => List.find?_cons_of_pos (by simpa using hfits)
    constructor
    · intro hi
      have hfits : i.width.bytes ≤ available := by simpa using List.find?_some hi
      have hmem : i ∈ table.accepting word := hfirst ▸ List.mem_of_find?_eq_some hi
      obtain ⟨hmem, hacc⟩ := mem_accepting.mp hmem
      by_cases heq : i = j
      · exact ⟨heq ▸ hj, hfits⟩
      · -- The widths are the same, so the first instruction would have been found instead.
        have hwidth := (hj.below i hmem hacc heq).1
        rw [hhead (hwidth ▸ hfits)] at hi
        exact absurd (Option.some.inj hi).symm heq
    · rintro ⟨hi, hfits⟩
      cases hi.unique hj
      exact hhead hfits

end Table

/-! ### The order of the records -/

/-- Two instructions that decoding does not tell apart. -/
structure Instruction.SameRule (i j : Instruction) : Prop where
  opcode : i.opcode = j.opcode
  width : i.width = j.width
  mask : i.mask = j.mask
  matchValue : i.matchValue = j.matchValue
  slots : i.slots = j.slots
  immediate : i.immediate = j.immediate

namespace Instruction.SameRule

variable {i j : Instruction} (h : i.SameRule j)
include h

theorem ident : i.ident = j.ident :=
  congrArg identOf h.opcode

theorem accepts (word : Word) : i.accepts word = j.accepts word := by
  rw [Instruction.accepts, h.mask, h.matchValue, Instruction.accepts]

theorem decodedIn (word : Word) :
    (i.decodedIn word).entry.mnemonic = (j.decodedIn word).entry.mnemonic ∧
      (i.decodedIn word).registers = (j.decodedIn word).registers ∧
      (i.decodedIn word).immediate = (j.decodedIn word).immediate := by
  rw [Instruction.decodedIn, Instruction.decodedIn, h.slots, h.immediate]
  exact ⟨h.opcode, rfl, rfl⟩

end Instruction.SameRule

namespace Table

theorem Resolves.sameRule {fields fields' : FieldRegistry} (hext : fields.Extends fields')
    {controlFlow controlFlow' : List String} {record : Record} {i j : Instruction}
    (hi : Resolves fields controlFlow record i) (hj : Resolves fields' controlFlow' record j) :
    i.SameRule j := by
  obtain ⟨layout, slots, hlayout, hslots, rfl⟩ := hi
  obtain ⟨layout', slots', hlayout', hslots', rfl⟩ := hj
  cases hlayout.symm.trans hlayout'
  cases (Operand.resolve_mono hext hslots).symm.trans hslots'
  exact ⟨rfl, rfl, rfl, rfl, rfl, rfl⟩

/-- The same records in another order declare the same fields. -/
theorem Describes.extends_of_perm {records records' : List Record} (hperm : records.Perm records')
    {controlFlow controlFlow' : List String} {table table' : Table}
    {resolved resolved' : List Instruction} (H : Describes records controlFlow table resolved)
    (H' : Describes records' controlFlow' table' resolved') : table.fields.Extends table'.fields := by
  intro name range hname
  obtain ⟨record, hrecord, hdeclares⟩ := (H.fields name range).mp hname
  exact (H'.fields name range).mpr ⟨record, hperm.mem_iff.mp hrecord, hdeclares⟩

/-- The instructions of a table are those of the table of the same records in another order. -/
theorem Describes.exists_same {records records' : List Record} (hperm : records.Perm records')
    {controlFlow controlFlow' : List String} {table table' : Table}
    {resolved resolved' : List Instruction} (H : Describes records controlFlow table resolved)
    (H' : Describes records' controlFlow' table' resolved') :
    ∀ i ∈ table.instructions, ∃ j ∈ table'.instructions, i.SameRule j := by
  intro i hi
  obtain ⟨record, hrecord, hresolves⟩ := H.exists_record hi
  obtain ⟨j, hj, hresolves'⟩ := exists_right_of_forall₂ H'.resolves (hperm.mem_iff.mp hrecord)
  refine ⟨j, ?_, hresolves.sameRule (H.extends_of_perm hperm H') hresolves'⟩
  rwa [H'.instructions, mem_arrange]

theorem WellFormed.eq_of_ident_eq {table : Table} (H : table.WellFormed) {i j : Instruction}
    (hi : i ∈ table.instructions) (hj : j ∈ table.instructions) (h : i.ident = j.ident) : i = j :=
  List.inj_on_of_nodup_map H.nodup hi hj h

theorem IsLargest.same {table table' : Table} {word : Word} (H' : table'.WellFormed)
    (hback : ∀ j ∈ table'.instructions, ∃ i ∈ table.instructions, j.SameRule i)
    {i j : Instruction} (hi : table.IsLargest word i) (hj : j ∈ table'.instructions)
    (hsame : i.SameRule j) : table'.IsLargest word j := by
  refine ⟨hj, (hsame.accepts word).symm.trans hi.accepts, fun m' hm' haccepts hne => ?_⟩
  obtain ⟨m, hm, hsame'⟩ := hback m' hm'
  have hother : m ≠ i := by
    rintro rfl
    exact hne (H'.eq_of_ident_eq hm' hj (hsame'.ident.trans hsame.ident))
  rw [hsame'.width, ← hsame.width, hsame'.mask, ← hsame.mask]
  exact hi.below m hm ((hsame'.accepts word).symm.trans haccepts) hother

theorem WellFormed.select?_same {table table' : Table} (H : table.WellFormed)
    (H' : table'.WellFormed) (hoverlaps : table.overlaps = []) (hoverlaps' : table'.overlaps = [])
    (hto : ∀ i ∈ table.instructions, ∃ j ∈ table'.instructions, i.SameRule j)
    (hback : ∀ j ∈ table'.instructions, ∃ i ∈ table.instructions, j.SameRule i)
    {word : Word} {available : Nat} {i : Instruction}
    (hi : table.select? word available = some i) :
    ∃ j, table'.select? word available = some j ∧ i.SameRule j := by
  obtain ⟨hlargest, hfits⟩ := (H.select?_eq_some_iff hoverlaps).mp hi
  obtain ⟨j, hj, hsame⟩ := hto i hlargest.mem
  refine ⟨j, (H'.select?_eq_some_iff hoverlaps').mpr ⟨?_, ?_⟩, hsame⟩
  · exact hlargest.same H' hback hj hsame
  · rwa [← hsame.width]

theorem decode_perm {records records' : List Record} (hperm : records.Perm records')
    {controlFlow controlFlow' : List String} {table table' : Table}
    (h : ofRecords records controlFlow = .ok table)
    (h' : ofRecords records' controlFlow' = .ok table') (hoverlaps : table.overlaps = [])
    (hoverlaps' : table'.overlaps = []) (word : Word) (available : Nat) :
    let decoded := table.decode word available
    let decoded' := table'.decode word available
    decoded.entry.mnemonic = decoded'.entry.mnemonic ∧ decoded.registers = decoded'.registers ∧
      decoded.immediate = decoded'.immediate := by
  obtain ⟨resolved, D⟩ := ofRecords_describes h
  obtain ⟨resolved', D'⟩ := ofRecords_describes h'
  have H := D.wellFormed
  have H' := D'.wellFormed
  have hto := D.exists_same hperm D'
  have hback := D'.exists_same hperm.symm D
  rw [decode_eq, decode_eq]
  cases hi : table.select? word available with
  | some i =>
    obtain ⟨j, hj, hsame⟩ := H.select?_same H' hoverlaps hoverlaps' hto hback hi
    rw [hj]
    exact hsame.decodedIn word
  | none =>
    cases hj : table'.select? word available with
    | none => exact ⟨rfl, rfl, rfl⟩
    | some j =>
      obtain ⟨i, hi', _⟩ := H'.select?_same H hoverlaps' hoverlaps hback hto hj
      rw [hi] at hi'
      cases hi'

end Table

/-- In a table without overlaps, the instructions that accept a word have one width, and each of them fixes all bits that
a later one fixes and more. The one that is found fixes the most; an instruction is found for its own match value, if no
other one accepts it; and the same records in another order decode every word alike. -/
theorem decode_without_overlaps {records : List Record} {controlFlow : List String} {table : Table}
    (h : Table.ofRecords records controlFlow = .ok table) (hoverlaps : table.overlaps = []) :
    (∀ word, (table.instructions.filter (·.accepts word)).Pairwise fun a b =>
      a.width = b.width ∧ MaskBelow b.mask a.mask) ∧
    (∀ word available i, (table.decode word available).entry = .instruction i →
      i ∈ table.instructions ∧ i.accepts word = true ∧
        ∀ m ∈ table.instructions, m.accepts word = true → m ≠ i →
          m.width = i.width ∧ MaskBelow m.mask i.mask) ∧
    (∀ i ∈ table.instructions,
      (∀ m ∈ table.instructions, m.accepts i.matchValue = true → m = i) →
        (table.decode i.matchValue i.width.bytes).entry = .instruction i) ∧
    ∀ records' controlFlow' table', records.Perm records' →
      Table.ofRecords records' controlFlow' = .ok table' → table'.overlaps = [] →
        ∀ word available,
          let decoded := table.decode word available
          let decoded' := table'.decode word available
          decoded.entry.mnemonic = decoded'.entry.mnemonic ∧
            decoded.registers = decoded'.registers ∧ decoded.immediate = decoded'.immediate := by
  have H := Table.ofRecords_wellFormed h
  refine ⟨H.pairwise_accepting hoverlaps, fun word available i hi => ?_, fun i hi hother => ?_,
    fun records' controlFlow' table' hperm h' hoverlaps' =>
      Table.decode_perm hperm h h' hoverlaps hoverlaps'⟩
  · rw [Table.entry_decode_eq_iff, H.select?_eq_some_iff hoverlaps] at hi
    exact ⟨hi.1.mem, hi.1.accepts, hi.1.below⟩
  · rw [Table.entry_decode_eq_iff, H.select?_eq_some_iff hoverlaps]
    have haccepts : i.accepts i.matchValue = true :=
      beq_iff_eq.mpr (H.instructions i hi).match_within
    exact ⟨⟨hi, haccepts, fun m hm hm' hne => absurd (hother m hm hm') hne⟩, Nat.le_refl _⟩

/-- A compressed instruction, a special case of it, and a standard instruction that neither of them concerns. -/
def nestedRecords : List Record :=
  [{ line := 1, provenance := {}, opcode := "c.nop", assembly := "", attributes := [],
     bitPattern := "000 0 00000 00000 01", operands := "-", action := "" },
   { line := 2, provenance := {}, opcode := "c.addi", assembly := "", attributes := [],
     bitPattern := "000 \x7b-5\x7d rd[5] \x7b4:0\x7d 01", operands := "x[rd]", action := "" }]

def unrelatedRecord : Record :=
  { line := 3, provenance := {}, opcode := "addi", assembly := "", attributes := [],
    bitPattern := "\x7b-11:0\x7d rs1[5] 000 rd[5] 0010011", operands := "x[rd], x[rs1]", action := "" }

theorem decode_without_overlaps_nested :
    ∃ table table', Table.ofRecords (nestedRecords ++ [unrelatedRecord]) [] = .ok table ∧
      Table.ofRecords (unrelatedRecord :: nestedRecords) [] = .ok table' ∧
      table.overlaps = [] ∧ table'.overlaps = [] ∧
      ∀ word available, (table.decode word available).entry.mnemonic =
        (table'.decode word available).entry.mnemonic := by
  obtain ⟨table, htable, hoverlaps⟩ : ∃ table,
      Table.ofRecords (nestedRecords ++ [unrelatedRecord]) [] = .ok table ∧
        table.overlaps.isEmpty = true := exists_ok_of_any (by decide +kernel)
  obtain ⟨table', htable', hoverlaps'⟩ : ∃ table',
      Table.ofRecords (unrelatedRecord :: nestedRecords) [] = .ok table' ∧
        table'.overlaps.isEmpty = true := exists_ok_of_any (by decide +kernel)
  have hoverlaps := List.isEmpty_iff.mp hoverlaps
  have hoverlaps' := List.isEmpty_iff.mp hoverlaps'
  have hperm : (nestedRecords ++ [unrelatedRecord]).Perm (unrelatedRecord :: nestedRecords) :=
    List.perm_append_comm
  refine ⟨table, table', htable, htable', hoverlaps, hoverlaps', fun word available => ?_⟩
  exact ((decode_without_overlaps htable hoverlaps).2.2.2 _ _ table' hperm htable' hoverlaps'
    word available).1

end IsaForge
