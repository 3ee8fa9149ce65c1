import IsaForge.Proofs.Accepted

/-!
Line numbers through a compilation. `Error.renumber`, `Record.renumber` and their likes map the line numbers of what
they are about. Each stage of a compilation commutes with them: on renumbered records it gives the renumbered result, or
fails with the renumbered error. No stage compares line numbers, so the map need not even be injective.
-/

namespace IsaForge

open Code

variable {α β γ δ : Type} (f : Nat → Nat)

/-! ### Renumbering -/

/-- An error about other lines. -/
def Error.renumber : Error → Error
  | .malformedRecord line column fault => .malformedRecord (f line) column fault
  | .illegalWidth line bits pattern => .illegalWidth (f line) bits pattern
  | .fieldRedefinition line name range previousLine previous =>
    .fieldRedefinition (f line) name range (f previousLine) previous
  | .duplicateOpcode line opcode previousLine => .duplicateOpcode (f line) opcode (f previousLine)
  | .reservedOpcode line opcode reserved => .reservedOpcode (f line) opcode reserved
  | .illegalOperand line specifier fault => .illegalOperand (f line) specifier fault
  | .tooManyAttributes axis count => .tooManyAttributes axis count
  | .unknownPlaceholder line opcode column placeholder =>
    .unknownPlaceholder (f line) opcode column placeholder
  | .invalidAction line opcode => .invalidAction (f line) opcode
  | .invalidConfig fault => .invalidConfig fault

/-- A record on another line. -/
def Record.renumber (record : Record) : Record :=
  { record with line := f record.line }

/-- An instruction from another line. -/
def Instruction.renumber (instruction : Instruction) : Instruction :=
  { instruction with line := f instruction.line }

/-- A field that was declared on another line. -/
def RegisteredField.renumber (declared : RegisteredField) : RegisteredField :=
  { declared with line := f declared.line }

/-- A map with its values mapped. -/
def NameMap.mapValues (g : α → β) (map : NameMap α) : NameMap β :=
  map.map fun (name, value) => (name, g value)

/-- Fields that were declared on other lines. -/
def FieldRegistry.renumber (registry : FieldRegistry) : FieldRegistry :=
  registry.mapValues (·.renumber f)

/-- A table of instructions from other lines. -/
def Table.renumber (table : Table) : Table :=
  ⟨table.instructions.map (·.renumber f), FieldRegistry.renumber f table.fields⟩

/-- A compilation of a description with other lines. -/
def Compilation.renumber (compilation : Compilation) : Compilation :=
  { compilation with table := compilation.table.renumber f }

/-- A result about other lines, where `g` renumbers its value. -/
def renumbered (g : α → β) : Except Error α → Except Error β
  | .ok a => .ok (g a)
  | .error e => .error (e.renumber f)

variable {f}

theorem bind_renumbered {g : α → β} {h : γ → δ} {x : Except Error α} {k : α → Except Error γ}
    {k' : β → Except Error δ} (hk : ∀ a, k' (g a) = renumbered f h (k a)) :
    renumbered f g x >>= k' = renumbered f h (x >>= k) := by
  cases x with
  | error e => rfl
  | ok a => exact hk a

theorem mapM_renumbered {g : α → β} {h : γ → δ} {k : α → Except Error γ} {k' : β → Except Error δ}
    (hk : ∀ a, k' (g a) = renumbered f h (k a)) (as : List α) :
    (as.map g).mapM k' = renumbered f (List.map h) (as.mapM k) := by
  induction as with
  | nil => rfl
  | cons a as ih =>
    rw [List.map_cons, List.mapM_cons, List.mapM_cons, hk, ih]
    refine bind_renumbered fun c => ?_
    refine bind_renumbered fun cs => ?_
    rfl

/-! ### Fields -/

namespace NameMap

theorem find?_mapValues (g : α → β) (name : String) (map : NameMap α) :
    (map.mapValues g).find? name = (map.find? name).map g := by
  induction map with
  | nil => rfl
  | cons entry map ih =>
    by_cases h : entry.1 = name
    · simp [mapValues, find?, h]
    · simpa [mapValues, find?, h] using ih

theorem mapValues_insert (g : α → β) (name : String) (value : α) (map : NameMap α) :
    (map.insert name value).mapValues g = (map.mapValues g).insert name (g value) := by
  induction map with
  | nil => rfl
  | cons entry map ih =>
    rw [insert]
    split
    · next h => simp [mapValues, insert, h]
    · next hlt =>
      split
      · next h => simp [mapValues, insert, h]
      · next hne => simpa [mapValues, insert, hlt, hne] using ih

end NameMap

namespace FieldRegistry

theorem find?_renumber (registry : FieldRegistry) (name : String) :
    NameMap.find? name (renumber f registry) = (NameMap.find? name registry).map (·.renumber f) :=
  NameMap.find?_mapValues _ _ _

theorem register_renumber (registry : FieldRegistry) (line : Nat) (field : NamedField) :
    register (renumber f registry) (f line) field =
      renumbered f (renumber f) (register registry line field) := by
  rw [register, register, find?_renumber]
  cases NameMap.find? field.name registry with
  | none =>
    exact congrArg Except.ok
      (NameMap.mapValues_insert (RegisteredField.renumber f) field.name ⟨field.range, line⟩ registry).symm
  | some previous =>
    by_cases h : previous.range = field.range
    · simp [h, RegisteredField.renumber, renumbered]
    · simp [h, RegisteredField.renumber, renumbered, Error.renumber]

theorem registerAll_cons (registry : FieldRegistry) (line : Nat) (field : NamedField)
    (fields : List NamedField) :
    registerAll registry line (field :: fields) =
      register registry line field >>= fun registry => registerAll registry line fields := by
  rw [registerAll, registerUntil]
  cases register registry line field <;> rfl

theorem registerAll_renumber (registry : FieldRegistry) (line : Nat) (fields : List NamedField) :
    registerAll (renumber f registry) (f line) fields =
      renumbered f (renumber f) (registerAll registry line fields) := by
  induction fields generalizing registry with
  | nil => rfl
  | cons field fields ih =>
    rw [registerAll_cons, registerAll_cons, register_renumber]
    exact bind_renumbered ih

end FieldRegistry

/-! ### Columns -/

theorem Record.parseRow_renumber (line : Nat) (cs : List Char) :
    parseRow (f line) cs = renumbered f (renumber f) (parseRow line cs) := by
  unfold parseRow
  cases Grammar.readAll row cs with
  | error failure => rfl
  | ok columns =>
    simp only [parseAttributes]
    cases Grammar.readAll attributeList columns.attributes.toList <;> rfl

theorem Layout.resolve_renumber (line : Nat) (pattern : String) :
    resolve (f line) pattern = renumbered f id (resolve line pattern) := by
  unfold resolve
  cases Pattern.parse pattern with
  | error failure => rfl
  | ok tokens =>
    dsimp only
    cases placeAll {} tokens.reverse with
    | error fault => rfl
    | ok placement =>
      dsimp only
      cases Width.ofBits? placement.position <;> rfl

namespace Operand

theorem selectedRange_renumber (registry : FieldRegistry) (selector : Selector) :
    selectedRange (FieldRegistry.renumber f registry) selector = selectedRange registry selector := by
  cases selector with
  | range hi lo? => rfl
  | named name =>
    rw [selectedRange, selectedRange, FieldRegistry.find?_renumber]
    cases NameMap.find? name registry <;> rfl

theorem slot_renumber (width : Width) (registry : FieldRegistry) (operand : Operand) :
    operand.slot width (FieldRegistry.renumber f registry) = operand.slot width registry := by
  cases operand with
  | absent | constant digits => rfl
  | field letters selector bias? => simp only [slot, selectedRange_renumber]

theorem slotsOf_renumber (line : Nat) (width : Width) (registry : FieldRegistry)
    (operands : List Operand) :
    slotsOf (f line) width (FieldRegistry.renumber f registry) operands =
      renumbered f id (slotsOf line width registry operands) := by
  induction operands with
  | nil => rfl
  | cons operand operands ih =>
    rw [slotsOf, slotsOf, slot_renumber]
    cases operand.slot width registry with
    | error fault => rfl
    | ok slot =>
      dsimp only
      rw [ih]
      cases slotsOf line width registry operands <;> rfl

theorem resolve_renumber (line : Nat) (list : String) (width : Width) (registry : FieldRegistry) :
    resolve (f line) list width (FieldRegistry.renumber f registry) =
      renumbered f id (resolve line list width registry) := by
  unfold resolve
  cases Grammar.readAll operandList list.toList with
  | error failure => rfl
  | ok operands =>
    dsimp only
    rw [slotsOf_renumber]
    cases slotsOf line width registry operands with
    | error e => rfl
    | ok slots =>
      simp only [renumbered, id_eq]
      cases PerSlot.ofList? .none slots <;> rfl

end Operand

/-! ### Tables -/

namespace Table

/-- What is known after records on other lines. -/
def Builder.renumber (f : Nat → Nat) (builder : Builder) : Builder where
  instructions := builder.instructions.map (·.renumber f)
  fields := FieldRegistry.renumber f builder.fields
  seen := builder.seen.mapValues f

theorem checkOpcode_renumber (builder : Builder) (record : Record) :
    checkOpcode (builder.renumber f) (record.renumber f) =
      renumbered f id (checkOpcode builder record) := by
  simp only [checkOpcode, Record.renumber]
  cases Sentinel.all.find? (·.name == identOf record.opcode) with
  | some sentinel => rfl
  | none =>
    simp only [Builder.renumber, NameMap.find?_mapValues]
    cases NameMap.find? (identOf record.opcode) builder.seen <;> rfl

theorem resolveRecord_renumber (fields : FieldRegistry) (controlFlow : List String)
    (record : Record) :
    resolveRecord (FieldRegistry.renumber f fields) controlFlow (record.renumber f) =
      renumbered f (Prod.map (·.renumber f) (FieldRegistry.renumber f))
        (resolveRecord fields controlFlow record) := by
  simp only [resolveRecord, Record.renumber]
  rw [Layout.resolve_renumber]
  refine bind_renumbered fun layout => ?_
  rw [id_eq, FieldRegistry.registerAll_renumber]
  refine bind_renumbered fun fields => ?_
  rw [Operand.resolve_renumber]
  refine bind_renumbered fun slots => ?_
  rfl

theorem addRecord_renumber (controlFlow : List String) (builder : Builder) (record : Record) :
    addRecord controlFlow (builder.renumber f) (record.renumber f) =
      renumbered f (Builder.renumber f) (addRecord controlFlow builder record) := by
  rw [addRecord, addRecord, checkOpcode_renumber]
  refine bind_renumbered fun _ => ?_
  have hfields : (builder.renumber f).fields = FieldRegistry.renumber f builder.fields := rfl
  rw [hfields, resolveRecord_renumber]
  refine bind_renumbered fun resolved => ?_
  refine congrArg Except.ok ?_
  simp [Builder.renumber, Record.renumber, NameMap.mapValues_insert]

theorem addRecords_renumber (controlFlow : List String) (builder : Builder) (records : List Record) :
    addRecords controlFlow (builder.renumber f) (records.map (·.renumber f)) =
      renumbered f (Builder.renumber f) (addRecords controlFlow builder records) := by
  induction records generalizing builder with
  | nil => rfl
  | cons record records ih =>
    rw [List.map_cons, addRecords, addRecords, addRecord_renumber]
    cases addRecord controlFlow builder record with
    | error e => rfl
    | ok builder => exact ih builder

theorem arrange_renumber (instructions : List Instruction) :
    arrange (instructions.map (·.renumber f)) = (arrange instructions).map (·.renumber f) := by
  rw [arrange, arrange, List.map_append, List.filter_map, List.filter_map]
  rfl

theorem ofRecords_renumber (records : List Record) (controlFlow : List String) :
    ofRecords (records.map (·.renumber f)) controlFlow =
      renumbered f (renumber f) (ofRecords records controlFlow) := by
  have hrecords : addRecords controlFlow {} (records.map (·.renumber f)) = _ :=
    addRecords_renumber controlFlow {} records
  rw [ofRecords, ofRecords, hrecords]
  cases addRecords controlFlow {} records with
  | error e => rfl
  | ok builder => simp [renumbered, renumber, Builder.renumber, arrange_renumber]

end Table

theorem Compilation.classify_renumber (table : Table) :
    classify (table.renumber f) = renumbered f id (classify table) := by
  have hobserved : classify (table.renumber f) = classify table := by
    rw [classify, classify, Table.renumber, List.foldl_map]
    rfl
  rw [hobserved, classify, Classifier.finalize, AxisMap.assign, AxisMap.assign]
  split <;> split <;> rfl

/-! ### Configurations -/

theorem Config.stateTrees_renumber (f : Nat → Nat) (config : Config) :
    renumbered f id config.stateTrees = config.stateTrees := by
  unfold Config.stateTrees
  split <;> rfl

theorem Config.checkFiles_renumber (f : Nat → Nat) (seen names : List String) :
    renumbered f id (checkFiles seen names) = checkFiles seen names := by
  induction names generalizing seen with
  | nil => rfl
  | cons name names ih =>
    rw [checkFiles]
    split
    · rfl
    · split
      · rfl
      · exact ih _

/-- The errors of a configuration are about no line. -/
theorem Config.validate_renumber (f : Nat → Nat) (config : Config) :
    renumbered f id config.validate = config.validate := by
  have hregisters (bank : String) (names : List String) :
      renumbered f id (checkRegisters bank names) = checkRegisters bank names := by
    rw [checkRegisters]
    split <;> rfl
  have hbind {x : Except Error Unit} {k : Unit → Except Error Unit} (hx : renumbered f id x = x)
      (hk : ∀ a, renumbered f id (k a) = k a) : renumbered f id (x >>= k) = x >>= k := by
    rw [← bind_renumbered fun a => (hk a).symm, hx]
  have hstate : renumbered f id (discard config.stateTrees) = discard config.stateTrees := by
    unfold stateTrees
    split <;> rfl
  refine hbind hstate fun _ => ?_
  refine hbind (hregisters _ _) fun _ => ?_
  exact hbind (hregisters _ _) fun _ => checkFiles_renumber f _ _

/-! ### Generated code -/

theorem Placeholder.isPresent_renumber (instruction : Instruction) (placeholder : Placeholder) :
    placeholder.isPresent (instruction.renumber f) = placeholder.isPresent instruction := by
  cases placeholder <;> rfl

namespace Disassembly

theorem addPieces_renumber (instruction : Instruction) (shown : Disassembly) (pieces : List (Bool × String)) :
    addPieces (instruction.renumber f) shown pieces =
      renumbered f id (addPieces instruction shown pieces) := by
  induction pieces generalizing shown with
  | nil => rfl
  | cons piece pieces ih =>
    rw [addPieces, addPieces]
    cases if piece.1 then Placeholder.ofName? piece.2 else none with
    | none => exact ih _
    | some placeholder =>
      simp only [Placeholder.isPresent_renumber]
      split
      · rw [ih]
        cases placeholder <;> rfl
      · rfl

theorem ofInstruction_renumber (instruction : Instruction) :
    ofInstruction (instruction.renumber f) = renumbered f id (ofInstruction instruction) := by
  have hassembly : (instruction.renumber f).assembly = instruction.assembly := rfl
  simp only [ofInstruction, hassembly]
  by_cases h : (instruction.assembly.isEmpty || decide (instruction.assembly = "-")) = true
  · rw [if_pos h, if_pos h]
    rfl
  · rw [if_neg h, if_neg h, addPieces_renumber]
    refine bind_renumbered fun shown => ?_
    rfl

end Disassembly

theorem Disassembler.items_renumber (table : Table) (config : Config) :
    items (table.renumber f) config = renumbered f id (items table config) := by
  have harm (instruction : Instruction) :
      arm (instruction.renumber f) = renumbered f id (arm instruction) := by
    rw [arm, arm, Disassembly.ofInstruction_renumber]
    refine bind_renumbered fun shown => ?_
    rfl
  rw [items, items, Table.renumber, mapM_renumbered harm]
  refine bind_renumbered fun arms => ?_
  rw [List.map_id]
  rfl

namespace Action

mutual

theorem substituteTree_renumber (instruction : Instruction) (before : Before) (tree : Tree) :
    substituteTree (instruction.renumber f) before tree =
      renumbered f id (substituteTree instruction before tree) := by
  cases tree with
  | group delimiter inner =>
    rw [substituteTree, substituteTree, substituteAll_renumber instruction .other inner]
    cases substituteAll instruction .other inner <;> rfl
  | ident name =>
    rw [substituteTree, substituteTree]
    split
    · rfl
    · cases Placeholder.ofName? name with
      | none => rfl
      | some placeholder =>
        simp only [Placeholder.isPresent_renumber]
        split <;> rfl
  | punct char spacing => rw [substituteTree, substituteTree]; rfl
  | literal text => rw [substituteTree, substituteTree]; rfl

theorem substituteAll_renumber (instruction : Instruction) (before : Before) (trees : List Tree) :
    substituteAll (instruction.renumber f) before trees =
      renumbered f id (substituteAll instruction before trees) := by
  cases trees with
  | nil => rw [substituteAll, substituteAll]; rfl
  | cons tree trees =>
    rw [substituteAll, substituteAll, substituteTree_renumber instruction before tree]
    cases substituteTree instruction before tree with
    | error e => rfl
    | ok first =>
      simp only [renumbered, id_eq]
      rw [substituteAll_renumber instruction (before.next tree) trees]
      cases substituteAll instruction (before.next tree) trees <;> rfl

end

theorem ofInstruction_renumber (instruction : Instruction) :
    ofInstruction (instruction.renumber f) = renumbered f id (ofInstruction instruction) := by
  simp only [ofInstruction, substitute, substituteAll_renumber]
  have haction : (instruction.renumber f).action = instruction.action := rfl
  rw [haction]
  cases lex instruction.action with
  | none => rfl
  | some trees =>
    dsimp only
    cases substituteAll instruction .other trees with
    | error e => rfl
    | ok trees =>
      simp only [renumbered, id_eq]
      split <;> rfl

end Action

theorem Dispatcher.items_renumber (table : Table) (config : Config) :
    items (table.renumber f) config = renumbered f id (items table config) := by
  have harm (instruction : Instruction) :
      DispatchArm.ofInstruction config.controlFlow (instruction.renumber f) =
        renumbered f id (DispatchArm.ofInstruction config.controlFlow instruction) := by
    rw [DispatchArm.ofInstruction, DispatchArm.ofInstruction, Action.ofInstruction_renumber]
    refine bind_renumbered fun body => ?_
    rfl
  rw [items, items, Table.renumber, mapM_renumbered harm]
  nth_rewrite 1 [← config.stateTrees_renumber f]
  refine bind_renumbered fun state => ?_
  refine bind_renumbered fun arms => ?_
  rw [List.map_id]
  rfl

theorem Decoder.ofTable_renumber (table : Table) : ofTable (table.renumber f) = ofTable table := by
  rw [ofTable, ofTable, Table.compressed, Table.standard, Table.compressed, Table.standard,
    Table.renumber, List.takeWhile_map, List.dropWhile_map, List.map_map, List.map_map]
  rfl

/-- Other lines show in the list of opcodes only. -/
theorem Compilation.generate_renumber (compilation : Compilation) (config : Config) :
    (compilation.renumber f).generate config =
      renumbered f
        (fun items => { items with
          opcodes := OpcodeList.items (compilation.table.renumber f) compilation.classification })
        (compilation.generate config) := by
  simp only [generate, renumber, Disassembler.items_renumber, Dispatcher.items_renumber,
    Decoder.ofTable_renumber]
  refine bind_renumbered fun disasm => ?_
  refine bind_renumbered fun execute => ?_
  rfl

end IsaForge
