import IsaForge.Proofs.RuleOrder

/-!
The order of the records of a description. A record is read against the fields that are declared before it, but where
the whole list is accepted it means what it means against all of them. So the same records in another order, if they
are accepted too, give the same instructions (`Table.Describes.resolves_of_perm`). Only the order of the instructions
can differ, and since they are sorted by width, how records of different widths are mixed does not matter
(`Table.Describes.instructions_eq`).
-/

namespace IsaForge

/-- The width of the pattern of a record, if it can be laid out. -/
def Record.width? (record : Record) : Option Width :=
  (Layout.resolve record.line record.bitPattern).toOption.map Layout.width

namespace Table

variable {fields : FieldRegistry} {controlFlow : List String}

theorem Resolves.width?_eq {record : Record} {i : Instruction} (h : Resolves fields controlFlow record i) :
    record.width? = some i.width := by
  obtain ⟨layout, slots, hlayout, -, rfl⟩ := h
  rw [Record.width?, hlayout]
  rfl

theorem Resolves.opcode_eq {record : Record} {i : Instruction} (h : Resolves fields controlFlow record i) :
    i.opcode = record.opcode := by
  obtain ⟨layout, slots, -, -, rfl⟩ := h
  rfl

theorem Resolves.unique {record : Record} {i j : Instruction} (hi : Resolves fields controlFlow record i)
    (hj : Resolves fields controlFlow record j) : i = j := by
  obtain ⟨layout, slots, hlayout, hslots, rfl⟩ := hi
  obtain ⟨layout', slots', hlayout', hslots', rfl⟩ := hj
  cases hlayout.symm.trans hlayout'
  cases hslots.symm.trans hslots'
  rfl

theorem resolved_unique {records : List Record} {resolved resolved' : List Instruction}
    (h : List.Forall₂ (Resolves fields controlFlow) records resolved)
    (h' : List.Forall₂ (Resolves fields controlFlow) records resolved') : resolved = resolved' := by
  have hunique : Relator.RightUnique (Resolves fields controlFlow) := fun _ _ _ => Resolves.unique
  exact hunique.forall₂ h h'

theorem resolves_filter {records : List Record} {resolved : List Instruction}
    (h : List.Forall₂ (Resolves fields controlFlow) records resolved) (width : Width) :
    List.Forall₂ (Resolves fields controlFlow) (records.filter (·.width? = some width))
      (resolved.filter (·.width = width)) := by
  apply List.rel_filter _ h
  intro record i hi
  simp [hi.width?_eq]

section

variable {records records' : List Record} {table table' : Table} {resolved resolved' : List Instruction}

/-- What the records in another order mean, they mean in this table too. -/
theorem Describes.resolves_of_perm (H : Describes records controlFlow table resolved)
    (H' : Describes records' controlFlow table' resolved') (hperm : records.Perm records') :
    List.Forall₂ (Resolves table.fields controlFlow) records' resolved' := by
  have hext := H'.extends_of_perm hperm.symm H
  exact H'.resolves.imp fun record i hi => hi.mono hext

theorem Describes.instructions_perm (H : Describes records controlFlow table resolved)
    (H' : Describes records' controlFlow table' resolved') (hperm : records.Perm records') :
    table.instructions.Perm table'.instructions := by
  obtain ⟨moved, hmoved, hresolved⟩ := List.perm_comp_forall₂ hperm (H.resolves_of_perm H' hperm)
  cases resolved_unique H.resolves hmoved
  rw [H.instructions, H'.instructions]
  exact (arrange_perm resolved).trans (hresolved.trans (arrange_perm resolved').symm)

theorem Describes.instructions_eq (H : Describes records controlFlow table resolved)
    (H' : Describes records' controlFlow table' resolved') (hperm : records.Perm records')
    (horder : ∀ width, records.filter (·.width? = some width) = records'.filter (·.width? = some width)) :
    table.instructions = table'.instructions := by
  -- how the widths are mixed is lost in `arrange`, which takes them one after the other
  have hsame : ∀ width, resolved.filter (·.width = width) = resolved'.filter (·.width = width) := by
    intro width
    apply resolved_unique (resolves_filter H.resolves width)
    rw [horder width]
    exact resolves_filter (H.resolves_of_perm H' hperm) width
  rw [H.instructions, H'.instructions, arrange, arrange, hsame .compressed, hsame .standard]

theorem Describes.length_compressed (H : Describes records controlFlow table resolved) :
    table.compressed.length = (records.filter (·.width? = some .compressed)).length := by
  rw [H.wellFormed.compressed_eq, H.instructions, filter_arrange]
  exact (resolves_filter H.resolves .compressed).length_eq.symm

theorem WellFormed.find?_opcode (H : table.WellFormed) {i : Instruction} (hi : i ∈ table.instructions) :
    table.find? i.opcode = some i := by
  rw [find?]
  cases hfind : table.instructions.find? (·.opcode == i.opcode) with
  | none => exact absurd (List.find?_eq_none.mp hfind i hi) (by simp)
  | some j =>
    have hopcode := List.find?_some hfind
    rw [beq_iff_eq] at hopcode
    rw [H.eq_of_ident_eq (List.mem_of_find?_eq_some hfind) hi (congrArg identOf hopcode)]

/-- The instruction of a record is found by the opcode of the record. -/
theorem Describes.find?_opcode (H : Describes records controlFlow table resolved) {record : Record}
    (hrecord : record ∈ records) {i : Instruction} (hi : Resolves table.fields controlFlow record i) :
    table.find? record.opcode = some i := by
  obtain ⟨j, hj, hresolves⟩ := exists_right_of_forall₂ H.resolves hrecord
  cases hresolves.unique hi
  rw [← hi.opcode_eq]
  apply H.wellFormed.find?_opcode
  rwa [H.instructions, mem_arrange]

end

end Table

/-- Two tables of the same records in different orders have the same instruction for each record. As many of them are
compressed as there are records of that width. If the records of each width stand in the same order, the instructions do
too. -/
theorem instructions_of_perm {records records' : List Record} {controlFlow : List String} {table table' : Table}
    (hperm : records.Perm records') (h : Table.ofRecords records controlFlow = .ok table)
    (h' : Table.ofRecords records' controlFlow = .ok table') :
    (∀ record ∈ records, ∃ i, Table.Resolves table.fields controlFlow record i ∧
      Table.Resolves table'.fields controlFlow record i ∧
      table.find? record.opcode = some i ∧ table'.find? record.opcode = some i) ∧
    table.instructions.Perm table'.instructions ∧
    table.compressed.length = (records.filter (·.width? = some .compressed)).length ∧
    table'.compressed.length = table.compressed.length ∧
    ((∀ width, records.filter (·.width? = some width) = records'.filter (·.width? = some width)) →
      table.instructions = table'.instructions) := by
  obtain ⟨resolved, H⟩ := Table.ofRecords_describes h
  obtain ⟨resolved', H'⟩ := Table.ofRecords_describes h'
  refine ⟨?_, H.instructions_perm H' hperm, H.length_compressed, ?_, H.instructions_eq H' hperm⟩
  · intro record hrecord
    obtain ⟨i, -, hi⟩ := exists_right_of_forall₂ H.resolves hrecord
    have hi' := hi.mono (H.extends_of_perm hperm H')
    exact ⟨i, hi, hi', H.find?_opcode hrecord hi, H'.find?_opcode (hperm.mem_iff.mp hrecord) hi'⟩
  · rw [H.length_compressed, H'.length_compressed]
    exact (hperm.symm.filter _).length_eq

theorem instructions_of_perm_mixedWidths :
    ∃ table table', Table.ofRecords (nestedRecords ++ [unrelatedRecord]) [] = .ok table ∧
      Table.ofRecords (unrelatedRecord :: nestedRecords) [] = .ok table' ∧
      (∃ i, table.find? "addi" = some i ∧ table'.find? "addi" = some i) ∧
      table.compressed.length = 2 ∧ table'.compressed.length = 2 ∧ table.instructions = table'.instructions := by
  obtain ⟨table, htable, -⟩ : ∃ table, Table.ofRecords (nestedRecords ++ [unrelatedRecord]) [] = .ok table ∧
      true = true := exists_ok_of_any (by decide +kernel)
  obtain ⟨table', htable', -⟩ : ∃ table', Table.ofRecords (unrelatedRecord :: nestedRecords) [] = .ok table' ∧
      true = true := exists_ok_of_any (by decide +kernel)
  have hcompressed : ((nestedRecords ++ [unrelatedRecord]).filter (·.width? = some .compressed)).length = 2 := by
    decide +kernel
  have hperm : (nestedRecords ++ [unrelatedRecord]).Perm (unrelatedRecord :: nestedRecords) :=
    List.perm_append_comm
  obtain ⟨hrecord, -, hlength, hlength', horder⟩ := instructions_of_perm hperm htable htable'
  obtain ⟨i, -, -, hi, hi'⟩ := hrecord unrelatedRecord (by simp)
  refine ⟨table, table', htable, htable', ⟨i, hi, hi'⟩, ?_, ?_, ?_⟩
  · rw [hlength, hcompressed]
  · rw [hlength', hlength, hcompressed]
  · apply horder
    intro width
    cases width <;> decide +kernel

end IsaForge
