import IsaForge.Proofs.Accepted
import IsaForge.Proofs.Classification

/-!
Arms that hand over control. The dispatcher looks for the behaviour `reference` among the tokens of an instruction, the
boundary after it is set from the marker of its record. An attribute can bring the same token, so that the two agree
exactly if no instruction that transfers control has the attribute without the marker
(`Dispatcher.handsOver_withAction_iff`).
-/

namespace IsaForge

open Code

/-! ### Tokens of a record -/

namespace TokenSet

/-- The behaviours that a record has by its attributes and its markers. -/
def IsOwn (attributes : List String) (provenance : Provenance) (token : String) : Prop :=
  (token ∈ attributes ∧ isIsaToken token = false) ∨ (token = customToken ∧ provenance.custom = true) ∨
    (token = referenceToken ∧ provenance.reference = true)

theorem hasControlFlow_iff {controlFlow : List String} {behavior : NameSet} :
    hasControlFlow controlFlow behavior = true ↔ ∃ token ∈ controlFlow, token ∈ behavior := by
  simp only [hasControlFlow, List.any_eq_true, List.contains_iff_mem]

variable {attributes controlFlow : List String} {provenance : Provenance}

/-- The behaviours that a record has by its attributes and the marker of custom instructions. -/
def declared (attributes : List String) (custom : Bool) : NameSet :=
  let written := NameSet.ofList (attributes.filter fun token => !isIsaToken token)
  if custom then NameSet.insert customToken written else written

theorem mem_declared_iff {custom : Bool} {token : String} :
    token ∈ declared attributes custom ↔
      (token ∈ attributes ∧ isIsaToken token = false) ∨ (token = customToken ∧ custom = true) := by
  have hwritten : token ∈ NameSet.ofList (attributes.filter fun token => !isIsaToken token) ↔
      token ∈ attributes ∧ isIsaToken token = false := by
    rw [NameSet.mem_ofList, List.mem_filter, Bool.not_eq_true']
  cases custom with
  | true => simp only [declared, if_true, NameSet.mem_insert, hwritten, and_true, or_comm]
  | false => simp only [declared, Bool.false_eq_true, if_false, hwritten, and_false, or_false]

theorem mem_insert_reference_iff {token : String} (href : provenance.reference = true) :
    token ∈ NameSet.insert referenceToken (declared attributes provenance.custom) ↔
      IsOwn attributes provenance token := by
  rw [NameSet.mem_insert, mem_declared_iff, IsOwn, href, or_comm, or_assoc]
  simp only [and_true]

/-- To its own behaviours a record of a reference model that transfers control adds the boundary after it. -/
theorem mem_behavior_iff {token : String} :
    token ∈ (ofRecord attributes provenance controlFlow).behavior ↔
      IsOwn attributes provenance token ∨
        (token = stopAfterToken ∧ provenance.reference = true ∧
          ∃ other ∈ controlFlow, IsOwn attributes provenance other) := by
  have hbehavior : (ofRecord attributes provenance controlFlow).behavior =
      if provenance.reference then
        let reference := NameSet.insert referenceToken (declared attributes provenance.custom)
        if hasControlFlow controlFlow reference then NameSet.insert stopAfterToken reference else reference
      else declared attributes provenance.custom := rfl
  rw [hbehavior]
  cases href : provenance.reference with
  | false =>
    rw [if_neg Bool.false_ne_true, mem_declared_iff, IsOwn, href]
    simp only [Bool.false_eq_true, and_false, false_and, or_false]
  | true =>
    have hflow : hasControlFlow controlFlow
          (NameSet.insert referenceToken (declared attributes provenance.custom)) = true ↔
        ∃ other ∈ controlFlow, IsOwn attributes provenance other := by
      simp only [hasControlFlow_iff, mem_insert_reference_iff href]
    simp only [if_true, true_and]
    by_cases h : ∃ other ∈ controlFlow, IsOwn attributes provenance other
    · rw [if_pos (hflow.mpr h), NameSet.mem_insert, mem_insert_reference_iff href, or_comm,
        and_iff_left h]
    · rw [if_neg (mt hflow.mp h), mem_insert_reference_iff href, or_iff_left fun h' => h h'.2]

theorem reference_mem_behavior_iff :
    referenceToken ∈ (ofRecord attributes provenance controlFlow).behavior ↔
      provenance.reference = true ∨ referenceToken ∈ attributes := by
  rw [mem_behavior_iff, IsOwn]
  constructor
  · rintro ((⟨hmem, _⟩ | ⟨heq, _⟩ | ⟨_, href⟩) | ⟨heq, _⟩)
    · exact .inr hmem
    · exact absurd heq (by decide)
    · exact .inl href
    · exact absurd heq (by decide)
  · rintro (href | hmem)
    · exact .inl (.inr (.inr ⟨rfl, href⟩))
    · exact .inl (.inl ⟨hmem, by decide⟩)

theorem isControlTransfer_iff :
    (ofRecord attributes provenance controlFlow).isControlTransfer controlFlow = true ↔
      (provenance.reference = true ∨ referenceToken ∈ attributes) ∧
        ∃ token ∈ controlFlow, token ∈ (ofRecord attributes provenance controlFlow).behavior := by
  rw [isControlTransfer, Bool.and_eq_true, List.contains_iff_mem, reference_mem_behavior_iff,
    hasControlFlow_iff]

/-- A record of a reference model that transfers control has a boundary after it. -/
theorem stopAfter_mem_behavior (href : provenance.reference = true)
    (hflow : ∃ token ∈ controlFlow, token ∈ (ofRecord attributes provenance controlFlow).behavior) :
    stopAfterToken ∈ (ofRecord attributes provenance controlFlow).behavior := by
  obtain ⟨token, htoken, hmem⟩ := hflow
  rcases mem_behavior_iff.mp hmem with hown | ⟨rfl, _⟩
  · exact mem_behavior_iff.mpr (.inr ⟨rfl, href, token, htoken, hown⟩)
  · exact hmem

end TokenSet

/-! ### Bits of opcodes -/

namespace Table

/-- The bit of an opcode in an array of words, as the generated code looks it up. -/
def bitAt (words : List (BitVec 64)) (index : Nat) : Bool :=
  (words.getD (index / 64) 0).getLsbD (index % 64)

theorem getLsbD_packBits (bits : List Bool) {k : Nat} (hk : k < 64) :
    (packBits bits).getLsbD k = bits.getD k false := by
  have hfold : packBits bits = bits.zipIdx.foldl
      (fun value entry => value ||| if entry.1 then 1#64 <<< entry.2 else 0#64) 0 := by
    rw [packBits]
    congr 1
    funext value ⟨bit, i⟩
    cases bit <;> simp
  rw [hfold, getLsbD_foldl_or, show (0 : BitVec 64).getLsbD k = false from BitVec.getLsbD_zero,
    Bool.false_or, Bool.eq_iff_iff, List.any_eq_true, List.getD_eq_getElem?_getD]
  constructor
  · rintro ⟨⟨bit, i⟩, hmem, hbit⟩
    rw [List.mem_zipIdx_iff_getElem?] at hmem
    cases bit with
    | false => simp at hbit
    | true =>
      have hik : i = k := by
        simp only [if_true, BitVec.getLsbD_shiftLeft, BitVec.getLsbD_one, Bool.and_eq_true,
          decide_eq_true_eq, Bool.not_eq_true', decide_eq_false_iff_not] at hbit
        omega
      rw [← hik, hmem]
      rfl
  · intro hbit
    have hget : bits[k]? = some true := by
      cases h : bits[k]? with
      | none => rw [h] at hbit; cases hbit
      | some bit => rw [h] at hbit; exact congrArg some hbit
    refine ⟨(true, k), List.mem_zipIdx_iff_getElem?.mpr hget, ?_⟩
    simp [hk]

theorem length_entries (table : Table) : table.entries.length = table.numberOfOpcodes := by
  simp [entries, numberOfOpcodes]

theorem entries_succ {table : Table} {k : Nat} {instruction : Instruction}
    (h : table.instructions[k]? = some instruction) :
    table.entries[k + 1]? = some (.instruction instruction) := by
  have hk : k < table.instructions.length := (List.getElem?_eq_some_iff.mp h).1
  rw [entries, List.cons_append, List.getElem?_cons_succ, List.getElem?_append_left (by simpa using hk),
    List.getElem?_map, h]
  rfl

/-- The bit of an opcode says whether the token is among its behaviours. All bits above the last opcode are zero. -/
theorem bitAt_membership (table : Table) (token : String) (index : Nat) :
    bitAt (table.membership token) index = table.entries[index]?.any fun entry =>
      entry.instruction?.any fun instruction => instruction.tokens.behavior.contains token := by
  rw [bitAt, membership, List.getD_eq_getElem?_getD, List.getElem?_map]
  by_cases hword : index / 64 < (table.numberOfOpcodes + 63) / 64
  · have hbit : index % 64 < 64 := Nat.mod_lt _ (by decide)
    rw [List.getElem?_range hword, Option.map_some, Option.getD_some, getLsbD_packBits _ hbit,
      List.getD_eq_getElem?_getD, List.getElem?_take_of_lt hbit, List.getElem?_drop, Nat.div_add_mod,
      List.getElem?_map]
    cases table.entries[index]? with
    | none => rfl
    | some entry => cases entry <;> rfl
  · have hbeyond : table.entries.length ≤ index := by
      rw [length_entries]
      omega
    rw [List.getElem?_eq_none (by rw [List.length_range]; omega), List.getElem?_eq_none hbeyond]
    exact BitVec.getLsbD_zero

end Table

/-! ### Arms -/

namespace DispatchArm

/-- The code of an arm ends by handing over control. -/
def EndsInTransfer (arm : DispatchArm) : Prop :=
  ∃ before, arm.trees =
    opcodePath arm.opcode ++ fixed "=>" ++ braces (before ++ fixed "Step::Transfer(pc)") ++ fixed ","

theorem fixed_transfer : fixed "Step::Transfer(pc)" =
    [.ident "Step", .punct ':' .joint, .punct ':' .alone, .ident "Transfer", .group .paren [.ident "pc"]] := by
  rfl

theorem fixed_next : fixed "; Step::Next(pc)" = .punct ';' .alone ::
    [.ident "Step", .punct ':' .joint, .punct ':' .alone, .ident "Next", .group .paren [.ident "pc"]] := by
  rfl

theorem advance_ne_transfer (body before : List Tree) (bytes : Nat) :
    body ++ (Ending.advance bytes).trees ≠ before ++ fixed "Step::Transfer(pc)" := by
  intro h
  rw [Ending.trees, fixed_next, fixed_transfer, List.append_cons, ← List.append_assoc] at h
  have hname : Tree.ident "Next" = .ident "Transfer" :=
    (List.cons.inj (List.cons.inj (List.cons.inj (List.cons.inj (List.append_inj_right' h rfl)).2).2).2).1
  injection hname with hname
  exact absurd hname (by decide)

theorem endsInTransfer_iff {arm : DispatchArm} : arm.EndsInTransfer ↔ arm.ending = .transfer := by
  obtain ⟨opcode, body, ending⟩ := arm
  constructor
  · rintro ⟨before, h⟩
    rw [trees] at h
    have h := List.append_cancel_left (List.append_cancel_right h)
    cases ending with
    | transfer => rfl
    | advance bytes =>
      rw [braces, braces] at h
      injection h with h
      injection h with _ h
      exact absurd h (advance_ne_transfer _ _ _)
  · rintro rfl
    exact ⟨_, rfl⟩

/-- The arm of an instruction whose action can be read. -/
def withAction (controlFlow : List String) (instruction : Instruction) : DispatchArm :=
  ⟨instruction.ident, (Action.ofInstruction instruction).toOption.getD [],
    .ofInstruction controlFlow instruction⟩

theorem ofInstruction_eq_ok_iff {controlFlow : List String} {instruction : Instruction}
    {arm : DispatchArm} :
    ofInstruction controlFlow instruction = .ok arm ↔
      (∃ body, Action.ofInstruction instruction = .ok body) ∧
        arm = withAction controlFlow instruction := by
  rw [ofInstruction, bind_eq_ok_iff]
  constructor
  · rintro ⟨body, hbody, h⟩
    cases h
    refine ⟨⟨body, hbody⟩, ?_⟩
    rw [withAction, hbody]
    rfl
  · rintro ⟨⟨body, hbody⟩, rfl⟩
    refine ⟨body, hbody, ?_⟩
    rw [withAction, hbody]
    rfl

theorem endsInTransfer_withAction {controlFlow : List String} {instruction : Instruction} :
    (withAction controlFlow instruction).EndsInTransfer ↔
      instruction.tokens.isControlTransfer controlFlow = true := by
  rw [endsInTransfer_iff, withAction, Ending.ofInstruction]
  by_cases h : instruction.tokens.isControlTransfer controlFlow = true
  · rw [if_pos h]
    exact iff_of_true rfl h
  · rw [if_neg h]
    exact iff_of_false nofun h

end DispatchArm

/-! ### The dispatcher -/

namespace Dispatcher

theorem exists_items_eq {table : Table} {config : Config} {code : List (List Tree)}
    (h : items table config = .ok code) :
    ∃ state, code = [stepItem,
      routineItem state (table.instructions.map (DispatchArm.withAction config.controlFlow))] := by
  simp only [items, bind_eq_ok_iff, mapM_eq_ok_iff DispatchArm.ofInstruction_eq_ok_iff] at h
  obtain ⟨state, _, _, ⟨_, rfl⟩, h⟩ := h
  cases h
  exact ⟨state, rfl⟩

/-- The texts of a compilation hold the arms of all instructions and the array of the boundaries after them. -/
theorem exists_artifacts_eq {compilation : Compilation} {config : Config}
    {items : PerArtifact (List (List Tree))} (h : compilation.generate config = .ok items) :
    (∃ state, (items.map artifactText).execute = artifactText [stepItem, routineItem state
      (compilation.table.instructions.map (DispatchArm.withAction config.controlFlow))]) ∧
    ∃ before after, (items.map artifactText).opcodes = artifactText (before ++
      OpcodeList.membershipItem "STOP_AFTER" (compilation.table.membership TokenSet.stopAfterToken) ::
        after) := by
  obtain ⟨_, hexecute, hopcodes, _⟩ := Compilation.generate_eq_ok_iff.mp h
  obtain ⟨state, hstate⟩ := exists_items_eq hexecute
  have hmem : OpcodeList.membershipItem "STOP_AFTER"
      (compilation.table.membership TokenSet.stopAfterToken) ∈ items.opcodes := by
    rw [hopcodes, OpcodeList.items]
    refine List.mem_append_left _ ?_
    simp only [List.mem_cons, true_or, or_true]
  obtain ⟨before, after, hsplit⟩ := List.append_of_mem hmem
  exact ⟨⟨state, congrArg artifactText hstate⟩, before, after, congrArg artifactText hsplit⟩

/-- What the arm of a record has to do: it hands over control exactly for a record of a reference model that transfers
control, and then the boundary after the opcode is set. -/
structure HandsOver (config : Config) (table : Table) (record : Record) (tokens : TokenSet) (index : Nat)
    (arm : DispatchArm) : Prop where
  transfer : arm.EndsInTransfer ↔
    record.provenance.reference = true ∧ ∃ token ∈ config.controlFlow, token ∈ tokens.behavior
  stops : arm.EndsInTransfer →
    Table.bitAt (table.membership TokenSet.stopAfterToken) index = true

theorem handsOver_withAction_iff {config : Config} {table : Table} {record : Record} {k : Nat}
    {instruction : Instruction} (hinstruction : table.instructions[k]? = some instruction)
    (htokens : instruction.tokens =
      TokenSet.ofRecord record.attributes record.provenance config.controlFlow) :
    HandsOver config table record instruction.tokens (k + 1)
        (DispatchArm.withAction config.controlFlow instruction) ↔
      record.provenance.reference = true ∨ TokenSet.referenceToken ∉ record.attributes ∨
        ∀ token ∈ config.controlFlow, token ∉ instruction.tokens.behavior := by
  have hends : (DispatchArm.withAction config.controlFlow instruction).EndsInTransfer ↔
      (record.provenance.reference = true ∨ TokenSet.referenceToken ∈ record.attributes) ∧
        ∃ token ∈ config.controlFlow, token ∈ instruction.tokens.behavior := by
    rw [DispatchArm.endsInTransfer_withAction, htokens]
    exact TokenSet.isControlTransfer_iff
  have hbit : Table.bitAt (table.membership TokenSet.stopAfterToken) (k + 1) = true ↔
      TokenSet.stopAfterToken ∈ instruction.tokens.behavior := by
    rw [Table.bitAt_membership, Table.entries_succ hinstruction]
    exact List.contains_iff_mem
  constructor
  · intro H
    by_contra hnot
    simp only [not_or, not_not, not_forall] at hnot
    obtain ⟨hunmarked, hattribute, token, htoken, hmem⟩ := hnot
    exact hunmarked (H.transfer.mp (hends.mpr ⟨.inr hattribute, token, htoken, hmem⟩)).1
  · intro hagrees
    have hmarked (h : (DispatchArm.withAction config.controlFlow instruction).EndsInTransfer) :
        record.provenance.reference = true := by
      obtain ⟨hreference, token, htoken, hmem⟩ := hends.mp h
      rcases hagrees with hmarked | hattribute | hflow
      · exact hmarked
      · exact hreference.resolve_right hattribute
      · exact absurd hmem (hflow token htoken)
    refine ⟨⟨fun h => ⟨hmarked h, (hends.mp h).2⟩, fun h => hends.mpr ⟨.inl h.1, h.2⟩⟩, fun h => ?_⟩
    have hflow := (hends.mp h).2
    rw [htokens] at hflow
    rw [hbit, htokens]
    exact TokenSet.stopAfter_mem_behavior (hmarked h) hflow

/-- In the code of a description that compiles, the arm of an instruction does what it has to unless its record has the
attribute `reference` without the marker and transfers control. -/
theorem handsOver_iff {source : String} {config : Config} {artifacts : PerArtifact String}
    (h : compile source config = .ok artifacts) :
    ∃ compilation records state arms before after,
      Compilation.ofSource source config = .ok compilation ∧
      Record.parseSource source = .ok records ∧
      artifacts.execute = artifactText [stepItem, routineItem state arms] ∧
      artifacts.opcodes = artifactText (before ++ OpcodeList.membershipItem "STOP_AFTER"
        (compilation.table.membership TokenSet.stopAfterToken) :: after) ∧
      arms.length = compilation.table.instructions.length ∧
      ∀ (k : Nat) (instruction : Instruction),
        compilation.table.instructions[k]? = some instruction →
        ∃ arm, arms[k]? = some arm ∧ arm.opcode = instruction.ident ∧
          compilation.table.entries[k + 1]? = some (.instruction instruction) ∧
          ∃ record ∈ records, identOf record.opcode = instruction.ident ∧
            (HandsOver config compilation.table record instruction.tokens (k + 1) arm ↔
              record.provenance.reference = true ∨ TokenSet.referenceToken ∉ record.attributes ∨
                ∀ token ∈ config.controlFlow, token ∉ instruction.tokens.behavior) := by
  obtain ⟨compilation, items, hcompilation, hitems, rfl⟩ := compile_eq_ok_iff.mp h
  obtain ⟨⟨state, hexecute⟩, before, after, hopcodes⟩ := exists_artifacts_eq hitems
  obtain ⟨_, records, hrecords, htable, _⟩ := Compilation.ofSource_eq_ok_iff.mp hcompilation
  obtain ⟨_, H⟩ := Table.ofRecords_describes htable
  refine ⟨compilation, records, state, _, before, after, hcompilation, hrecords, hexecute, hopcodes,
    List.length_map _, fun k instruction hk => ?_⟩
  have hmem := List.mem_of_getElem? hk
  rw [H.instructions, Table.mem_arrange] at hmem
  obtain ⟨record, hrecord, hresolves⟩ := exists_left_of_forall₂ H.resolves hmem
  have htokens : instruction.tokens =
      TokenSet.ofRecord record.attributes record.provenance config.controlFlow := by
    obtain ⟨_, _, _, _, rfl⟩ := hresolves
    rfl
  refine ⟨DispatchArm.withAction config.controlFlow instruction, ?_, rfl, Table.entries_succ hk, record,
    hrecord, hresolves.ident_eq.symm, handsOver_withAction_iff hk htokens⟩
  rw [List.getElem?_map, hk]
  rfl

/-- A jump of a reference model, and an instruction that goes on to the next one. -/
def markedSource : String :=
  "!j - I,uj \"00000000000000000000000000000001\" - \"\"\nnop - I \"00000000000000000000000000000010\" - \"\"\n"

theorem handsOver_markedSource :
    ∃ artifacts compilation state arms arm, compile markedSource {} = .ok artifacts ∧
      Compilation.ofSource markedSource {} = .ok compilation ∧
      artifacts.execute = artifactText [stepItem, routineItem state arms] ∧
      arms[0]? = some arm ∧ arm.opcode = "j" ∧ arm.EndsInTransfer ∧
      Table.bitAt (compilation.table.membership TokenSet.stopAfterToken) 1 = true := by
  obtain ⟨compilation, items, hcompile, hcompilation, _, hjump⟩ := exists_compile markedSource {}
    (fun c => c.table.instructions[0]?.any fun i : Instruction =>
      decide (i.ident = "j" ∧ "uj" ∈ i.tokens.behavior)) (by decide +kernel)
  obtain ⟨records, hrecords, hmarked⟩ : ∃ records, Record.parseSource markedSource = .ok records ∧
      decide (∀ record ∈ records, identOf record.opcode = "j" → record.provenance.reference = true) = true :=
    exists_ok_of_any (by decide +kernel)
  obtain ⟨instruction, hinstruction, hjump⟩ := (Option.any_eq_true _ _).mp hjump
  obtain ⟨hident, hflow⟩ := of_decide_eq_true hjump
  obtain ⟨other, otherRecords, state, arms, _, _, hother, hotherRecords, hexecute, _, _, harms⟩ :=
    handsOver_iff hcompile
  obtain rfl : other = compilation := Except.ok.inj (hother.symm.trans hcompilation)
  obtain rfl : otherRecords = records := Except.ok.inj (hotherRecords.symm.trans hrecords)
  obtain ⟨arm, harm, hopcode, _, record, hrecord, hrecordIdent, hiff⟩ := harms 0 instruction hinstruction
  have hreference := of_decide_eq_true hmarked record hrecord (hrecordIdent.trans hident)
  have H := hiff.mpr (.inl hreference)
  have hends := H.transfer.mpr ⟨hreference, "uj", by decide, hflow⟩
  exact ⟨_, other, state, arms, arm, hcompile, hother, hexecute, harm, hopcode.trans hident, hends,
    H.stops hends⟩

/-- A jump that has the attribute of a reference model, but not the marker. -/
def unmarkedSource : String :=
  "j - I,reference,uj \"00000000000000000000000000000001\" - \"\"\n"

theorem not_handsOver_unmarkedSource :
    ∃ artifacts compilation state arm, compile unmarkedSource {} = .ok artifacts ∧
      Compilation.ofSource unmarkedSource {} = .ok compilation ∧
      compilation.table.instructions.map (fun i => (i.ident, i.provenance)) = [("j", {})] ∧
      artifacts.execute = artifactText [stepItem, routineItem state [arm]] ∧
      arm.opcode = "j" ∧ arm.EndsInTransfer ∧
      Table.bitAt (compilation.table.membership TokenSet.stopAfterToken) 1 = false := by
  obtain ⟨compilation, items, hcompile, hcompilation, hitems, h⟩ := exists_compile unmarkedSource {}
    (fun c => decide (
      c.table.instructions.map (fun i => (i.ident, i.provenance)) = [("j", {})] ∧
      (∀ i ∈ c.table.instructions, i.tokens.isControlTransfer ({} : Config).controlFlow = true) ∧
      Table.bitAt (c.table.membership TokenSet.stopAfterToken) 1 = false)) (by decide +kernel)
  obtain ⟨hrecords, htransfer, hbit⟩ := of_decide_eq_true h
  obtain ⟨⟨state, hexecute⟩, _⟩ := exists_artifacts_eq hitems
  obtain ⟨instruction, hinstruction, hidents⟩ := List.map_eq_singleton_iff.mp hrecords
  rw [hinstruction, List.map_singleton] at hexecute
  refine ⟨_, compilation, state, _, hcompile, hcompilation, hrecords, hexecute, congrArg Prod.fst hidents,
    DispatchArm.endsInTransfer_withAction.mpr (htransfer instruction ?_), hbit⟩
  rw [hinstruction]
  exact List.mem_singleton_self _

end Dispatcher

end IsaForge
