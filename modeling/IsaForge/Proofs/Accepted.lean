import IsaForge.Compilation
import IsaForge.Proofs.RecordText
import IsaForge.Proofs.Resolution

/-!
What is known of a description that compiles. `compile_eq_ok_iff` and `Compilation.ofSource_eq_ok_iff` take the stages of
a compilation apart; `Record.parseSource_opcode` says which characters the opcodes of a description have.
-/

namespace IsaForge

open Grammar

/-! ### The stages -/

theorem Compilation.ofSource_eq_ok_iff {source : String} {config : Config} {compilation : Compilation} :
    ofSource source config = .ok compilation ↔
      config.validate = .ok () ∧ ∃ records, Record.parseSource source = .ok records ∧
        Table.ofRecords records config.controlFlow = .ok compilation.table ∧
        classify compilation.table = .ok compilation.classification := by
  simp only [ofSource, bind_eq_ok_iff]
  constructor
  · rintro ⟨_, hvalid, records, hrecords, table, htable, classification, hclassify, h⟩
    cases h
    exact ⟨hvalid, records, hrecords, htable, hclassify⟩
  · rintro ⟨hvalid, records, hrecords, htable, hclassify⟩
    exact ⟨(), hvalid, records, hrecords, _, htable, _, hclassify, rfl⟩

theorem Compilation.generate_eq_ok_iff {compilation : Compilation} {config : Config}
    {items : PerArtifact (List (List Code.Tree))} :
    compilation.generate config = .ok items ↔
      Disassembler.items compilation.table config = .ok items.disasm ∧
        Dispatcher.items compilation.table config = .ok items.execute ∧
        items.opcodes = OpcodeList.items compilation.table compilation.classification ∧
        items.decode = (Decoder.ofTable compilation.table).items := by
  simp only [generate, bind_eq_ok_iff]
  constructor
  · rintro ⟨disasm, hdisasm, execute, hexecute, h⟩
    cases h
    exact ⟨hdisasm, hexecute, rfl, rfl⟩
  · rintro ⟨hdisasm, hexecute, hopcodes, hdecode⟩
    refine ⟨_, hdisasm, _, hexecute, ?_⟩
    rw [← hopcodes, ← hdecode]
    rfl

theorem compile_eq_ok_iff {source : String} {config : Config} {artifacts : PerArtifact String} :
    compile source config = .ok artifacts ↔
      ∃ compilation items, Compilation.ofSource source config = .ok compilation ∧
        compilation.generate config = .ok items ∧ artifacts = items.map artifactText := by
  simp only [compile, bind_eq_ok_iff]
  constructor
  · rintro ⟨compilation, hcompilation, items, hitems, h⟩
    cases h
    exact ⟨compilation, items, hcompilation, hitems, rfl⟩
  · rintro ⟨compilation, items, hcompilation, hitems, rfl⟩
    exact ⟨compilation, hcompilation, items, hitems, rfl⟩

theorem compile_eq_error_iff {source : String} {config : Config} {error : Error} :
    compile source config = .error error ↔
      Compilation.ofSource source config = .error error ∨
        ∃ compilation, Compilation.ofSource source config = .ok compilation ∧
          compilation.generate config = .error error := by
  simp only [compile, bind_eq_error_iff]
  refine or_congr Iff.rfl (exists_congr fun compilation => and_congr Iff.rfl ?_)
  exact ⟨fun h => h.resolve_right nofun, .inl⟩

theorem exists_compile (source : String) (config : Config) (p : Compilation → Bool)
    (h : (Compilation.ofSource source config).toOption.any
      (fun compilation => (compilation.generate config).toOption.isSome && p compilation) = true) :
    ∃ compilation items, compile source config = .ok (items.map artifactText) ∧
      Compilation.ofSource source config = .ok compilation ∧ compilation.generate config = .ok items ∧
      p compilation = true := by
  obtain ⟨compilation, hcompilation, h⟩ := exists_ok_of_any h
  obtain ⟨hsome, hp⟩ := Bool.and_eq_true_iff.mp h
  obtain ⟨items, hitems⟩ := Option.isSome_iff_exists.mp hsome
  have hitems : compilation.generate config = .ok items := by
    cases hgenerate : compilation.generate config with
    | error e => rw [hgenerate] at hitems; cases hitems
    | ok items' => rw [hgenerate] at hitems; cases hitems; rfl
  exact ⟨compilation, items, compile_eq_ok_iff.mpr ⟨compilation, items, hcompilation, hitems, rfl⟩,
    hcompilation, hitems, hp⟩

/-! ### Opcodes -/

theorem Record.parseSource_opcode {source : String} {records : List Record}
    (h : parseSource source = .ok records) :
    ∀ record ∈ records, ∀ c ∈ record.opcode.toList, isOpcodeChar c = true :=
  fun record hrecord => (parseSource_wellFormed h record hrecord).opcode.2

end IsaForge
