import IsaForge.Proofs.Placement
import IsaForge.Table

/-!
Resolving the records of a description. Declaring a field adds its bits to the registry and changes nothing else
(`rangeOf?_register`), and an operand list means the same where more fields are declared (`Operand.resolve_mono`). So an
instruction is what its record means where the fields of the whole description are declared, wherever the record stands
(`addRecords_added`). `Table.WellFormed` is what holds of every table that a description gives.
-/

namespace IsaForge

/-! ### Related lists -/

theorem exists_left_of_forall₂ {α β : Type} {R : α → β → Prop} {as : List α} {bs : List β}
    (h : List.Forall₂ R as bs) {b : β} (hb : b ∈ bs) : ∃ a ∈ as, R a b := by
  induction h with
  | nil => cases hb
  | cons hab _ ih =>
    rcases List.mem_cons.mp hb with rfl | hb
    · exact ⟨_, List.mem_cons_self, hab⟩
    · obtain ⟨a, ha, hR⟩ := ih hb
      exact ⟨a, List.mem_cons_of_mem _ ha, hR⟩

theorem exists_right_of_forall₂ {α β : Type} {R : α → β → Prop} {as : List α} {bs : List β}
    (h : List.Forall₂ R as bs) {a : α} (ha : a ∈ as) : ∃ b ∈ bs, R a b :=
  exists_left_of_forall₂ (R := flip R) (List.Forall₂.flip h) ha

/-! ### Maps of names -/

theorem NameMap.find?_insert {α : Type} (name key : String) (value : α) (map : NameMap α) :
    find? key (insert name value map) = if name = key then some value else find? key map := by
  induction map with
  | nil => rfl
  | cons entry rest ih =>
    obtain ⟨first, old⟩ := entry
    rw [insert]
    split
    · rfl
    · split
      · next h =>
        subst h
        simp only [find?]
        split <;> rfl
      · next h =>
        simp only [find?, ih]
        split
        · next hfirst => rw [if_neg fun hname => h (hname.trans hfirst.symm)]
        · rfl

/-! ### The registry of fields -/

namespace FieldRegistry

/-- The bits of a declared field. -/
def rangeOf? (registry : FieldRegistry) (name : String) : Option BitRange :=
  (registry.find? name).map RegisteredField.range

/-- Declaring a field adds its bits and changes nothing else. -/
theorem rangeOf?_register {registry registry' : FieldRegistry} {line : Nat} {field : NamedField}
    (h : registry.register line field = .ok registry') (name : String) (range : BitRange) :
    registry'.rangeOf? name = some range ↔
      registry.rangeOf? name = some range ∨ field.name = name ∧ field.range = range := by
  unfold register at h
  split at h
  · next hnew =>
    cases h
    rw [rangeOf?, NameMap.find?_insert]
    by_cases hname : field.name = name
    · subst hname
      simp [rangeOf?, hnew]
    · simp [hname, rangeOf?]
  · next previous hfound =>
    split at h
    · next hrange =>
      cases h
      refine ⟨.inl, ?_⟩
      rintro (h | ⟨rfl, rfl⟩)
      · exact h
      · rw [rangeOf?, hfound, ← hrange]
        rfl
    · cases h

theorem rangeOf?_registerAll {registry registry' : FieldRegistry} {line : Nat}
    {fields : List NamedField} (h : registry.registerAll line fields = .ok registry')
    (name : String) (range : BitRange) :
    registry'.rangeOf? name = some range ↔
      registry.rangeOf? name = some range ∨
        ∃ field ∈ fields, field.name = name ∧ field.range = range := by
  induction fields generalizing registry with
  | nil =>
    cases h
    simp
  | cons field fields ih =>
    rw [registerAll, registerUntil] at h
    cases hfield : registry.register line field with
    | error e => rw [hfield] at h; cases h
    | ok next =>
      rw [hfield] at h
      rw [ih h, rangeOf?_register hfield, List.exists_mem_cons_iff, or_assoc]

/-- Every field of the first registry has the same bits in the second. -/
def Extends (registry registry' : FieldRegistry) : Prop :=
  ∀ name range, registry.rangeOf? name = some range → registry'.rangeOf? name = some range

end FieldRegistry

/-! ### Operands -/

namespace Operand

open FieldRegistry (Extends)

theorem selectedRange_mono {registry registry' : FieldRegistry} (hext : registry.Extends registry')
    {selector : Selector} {range : BitRange} (h : selectedRange registry selector = .ok range) :
    selectedRange registry' selector = .ok range := by
  cases selector with
  | range hi lo? => exact h
  | named name =>
    have hrange : registry.rangeOf? name = some range := by
      rw [selectedRange] at h
      split at h
      · next declared hfound => cases h; rw [FieldRegistry.rangeOf?, hfound]; rfl
      · cases h
    obtain ⟨declared, hfound, hdeclared⟩ := Option.map_eq_some_iff.mp (hext name range hrange)
    rw [selectedRange, hfound, ← hdeclared]

/-- The bias of an operand, zero if none is given. -/
def biasValue (bias? : Option String) : Except OperandFault Nat :=
  match bias? with
  | none => pure 0
  | some digits => index digits

theorem slot_field_eq_ok_iff {width : Width} {registry : FieldRegistry} {letters : String}
    {selector : Selector} {bias? : Option String} {s : Slot} :
    slot width registry (.field letters selector bias?) = .ok s ↔
      ∃ registerClass range bias, RegisterClass.ofLetters? letters = some registerClass ∧
        selectedRange registry selector = .ok range ∧ range.lo ≤ range.hi ∧ range.hi < width.bits ∧
        biasValue bias? = .ok bias ∧ largestRegister range bias < 255 ∧
        s = .field registerClass range (BitVec.ofNat 8 bias) := by
  cases hclass : RegisterClass.ofLetters? letters with
  | none =>
    rw [slot, hclass]
    exact ⟨nofun, nofun⟩
  | some registerClass =>
    have hslot : slot width registry (.field letters selector bias?) = .ok s ↔
        ∃ range, selectedRange registry selector = .ok range ∧ ¬ range.hi < range.lo ∧
          ¬ width.bits ≤ range.hi ∧ ∃ bias, biasValue bias? = .ok bias ∧
            ¬ noRegister.toNat ≤ largestRegister range bias ∧
            (pure (.field registerClass range (BitVec.ofNat 8 bias)) : Except OperandFault Slot) =
              .ok s := by
      rw [slot, hclass]
      cases bias? <;> simp only [bind_eq_ok_iff, check_eq_ok_iff, biasValue]
    rw [hslot]
    constructor
    · rintro ⟨range, hrange, hle, hhi, bias, hbias, hlargest, h⟩
      cases h
      exact ⟨_, range, bias, rfl, hrange, Nat.le_of_not_lt hle, Nat.lt_of_not_le hhi, hbias,
        Nat.lt_of_not_le hlargest, rfl⟩
    · rintro ⟨_, range, bias, ⟨⟩, hrange, hle, hhi, hbias, hlargest, rfl⟩
      exact ⟨range, hrange, Nat.not_lt_of_le hle, Nat.not_le_of_lt hhi, bias, hbias,
        Nat.not_le_of_lt hlargest, rfl⟩

theorem slot_constant_eq_ok_iff {width : Width} {registry : FieldRegistry} {digits : String}
    {s : Slot} :
    slot width registry (.constant digits) = .ok s ↔
      ∃ value, index digits = .ok value ∧ value < 255 ∧ s = .literal (BitVec.ofNat 8 value) := by
  simp only [slot, bind_eq_ok_iff, check_eq_ok_iff]
  constructor
  · rintro ⟨value, hvalue, hlt, h⟩
    cases h
    exact ⟨value, hvalue, Nat.lt_of_not_le hlt, rfl⟩
  · rintro ⟨value, hvalue, hlt, rfl⟩
    exact ⟨value, hvalue, Nat.not_le_of_lt hlt, rfl⟩

theorem slot_mono {width : Width} {registry registry' : FieldRegistry}
    (hext : registry.Extends registry') {operand : Operand} {s : Slot}
    (h : slot width registry operand = .ok s) : slot width registry' operand = .ok s := by
  cases operand with
  | absent | constant _ => exact h
  | field letters selector bias? =>
    obtain ⟨registerClass, range, bias, hclass, hrange, hrest⟩ := slot_field_eq_ok_iff.mp h
    exact slot_field_eq_ok_iff.mpr
      ⟨registerClass, range, bias, hclass, selectedRange_mono hext hrange, hrest⟩

theorem slotsOf_eq_ok_iff {line : Nat} {width : Width} {registry : FieldRegistry}
    {operands : List Operand} {slots : List Slot} :
    slotsOf line width registry operands = .ok slots ↔
      List.Forall₂ (fun operand s => slot width registry operand = .ok s) operands slots := by
  induction operands generalizing slots with
  | nil => exact ⟨fun h => by cases h; exact .nil, fun h => by cases h; rfl⟩
  | cons operand rest ih =>
    rw [slotsOf]
    constructor
    · intro h
      split at h
      · cases h
      · next s hs =>
        split at h
        · cases h
        · next slots hslots =>
          cases h
          exact .cons hs (ih.mp hslots)
    · rintro (_ | ⟨hs, hslots⟩)
      rw [hs, ih.mpr hslots]

theorem resolve_eq_ok_iff {line : Nat} {list : String} {width : Width} {registry : FieldRegistry}
    {slots : PerSlot Slot} :
    resolve line list width registry = .ok slots ↔
      ∃ operands entries, Grammar.readAll operandList list.toList = .ok operands ∧
        List.Forall₂ (fun operand s => slot width registry operand = .ok s) operands entries ∧
        PerSlot.ofList? .none entries = some slots := by
  unfold resolve
  constructor
  · intro h
    split at h
    · cases h
    · next operands hread =>
      split at h
      · cases h
      · next entries hentries =>
        split at h
        · next hslots =>
          cases h
          exact ⟨operands, entries, hread, slotsOf_eq_ok_iff.mp hentries, hslots⟩
        · cases h
  · rintro ⟨operands, entries, hread, hentries, hslots⟩
    simp only [hread, slotsOf_eq_ok_iff.mpr hentries, hslots]

/-- An operand list means the same where more fields are declared. -/
theorem resolve_mono {line : Nat} {list : String} {width : Width}
    {registry registry' : FieldRegistry} (hext : registry.Extends registry') {slots : PerSlot Slot}
    (h : resolve line list width registry = .ok slots) :
    resolve line list width registry' = .ok slots := by
  obtain ⟨operands, entries, hread, hentries, hslots⟩ := resolve_eq_ok_iff.mp h
  exact resolve_eq_ok_iff.mpr ⟨operands, entries, hread, hentries.imp fun _ _ => slot_mono hext, hslots⟩

end Operand

/-- What a slot of an instruction of the given width keeps to: its bits are bits of the instruction, and no word makes it
the number that stands for no register, or a larger one. -/
def Slot.Fits (width : Width) : Slot → Prop
  | .none => True
  | .literal register => register.toNat < 255
  | .field _ range offset =>
    range.lo ≤ range.hi ∧ range.hi < width.bits ∧ Operand.largestRegister range offset.toNat < 255

theorem Operand.slot_fits {width : Width} {registry : FieldRegistry} {operand : Operand} {s : Slot}
    (h : slot width registry operand = .ok s) : s.Fits width := by
  cases operand with
  | absent =>
    cases h
    trivial
  | constant digits =>
    obtain ⟨value, _, hlt, rfl⟩ := slot_constant_eq_ok_iff.mp h
    rw [Slot.Fits, BitVec.toNat_ofNat]
    omega
  | field letters selector bias? =>
    obtain ⟨_, range, bias, _, _, hle, hhi, _, hlargest, rfl⟩ := slot_field_eq_ok_iff.mp h
    have hbias : bias < 255 := Nat.lt_of_le_of_lt (Nat.le_add_left _ _) hlargest
    refine ⟨hle, hhi, ?_⟩
    rwa [BitVec.toNat_ofNat, Nat.mod_eq_of_lt (by omega)]

theorem PerSlot.forall_mem_ofList? {α : Type} {filler : α} {xs : List α} {slots : PerSlot α}
    (h : ofList? filler xs = some slots) {p : α → Prop} (hfiller : p filler) (hxs : ∀ x ∈ xs, p x) :
    ∀ x ∈ slots.toList, p x := by
  unfold ofList? at h
  split at h <;> cases h <;> simp_all [toList]

theorem Operand.resolve_fits {line : Nat} {list : String} {width : Width} {registry : FieldRegistry}
    {slots : PerSlot Slot} (h : resolve line list width registry = .ok slots) :
    ∀ s ∈ slots.toList, s.Fits width := by
  obtain ⟨operands, entries, _, hentries, hslots⟩ := resolve_eq_ok_iff.mp h
  refine PerSlot.forall_mem_ofList? hslots trivial fun s hs => ?_
  obtain ⟨operand, _, hslot⟩ := exists_left_of_forall₂ hentries hs
  exact slot_fits hslot

namespace Table

/-! ### Records -/

/-- The instruction of a record with the given layout and slots. -/
def assemble (controlFlow : List String) (record : Record) (layout : Layout)
    (slots : PerSlot Slot) : Instruction where
  opcode := record.opcode
  line := record.line
  provenance := record.provenance
  assembly := record.assembly
  attributes := record.attributes
  tokens := TokenSet.ofRecord record.attributes record.provenance controlFlow
  matchValue := layout.matchValue
  mask := layout.mask
  width := layout.width
  slots := slots
  immediate := layout.immediate
  action := record.action

theorem resolveRecord_eq_ok_iff {fields fields' : FieldRegistry} {controlFlow : List String}
    {record : Record} {instruction : Instruction} :
    resolveRecord fields controlFlow record = .ok (instruction, fields') ↔
      ∃ layout slots, Layout.resolve record.line record.bitPattern = .ok layout ∧
        fields.registerAll record.line layout.fields = .ok fields' ∧
        Operand.resolve record.line record.operands layout.width fields' = .ok slots ∧
        instruction = assemble controlFlow record layout slots := by
  simp only [resolveRecord, bind_eq_ok_iff]
  constructor
  · rintro ⟨layout, hlayout, _, hfields, slots, hslots, h⟩
    cases h
    exact ⟨layout, slots, hlayout, hfields, hslots, rfl⟩
  · rintro ⟨layout, slots, hlayout, hfields, hslots, rfl⟩
    exact ⟨layout, hlayout, _, hfields, slots, hslots, rfl⟩

theorem checkOpcode_eq_ok_iff {builder : Builder} {record : Record} :
    checkOpcode builder record = .ok () ↔
      (∀ sentinel : Sentinel, sentinel.name ≠ identOf record.opcode) ∧
        builder.seen.find? (identOf record.opcode) = none := by
  have hreserved : Sentinel.all.find? (·.name == identOf record.opcode) = none ↔
      ∀ sentinel : Sentinel, sentinel.name ≠ identOf record.opcode := by
    rw [List.find?_eq_none]
    constructor
    · intro h sentinel
      simpa using h sentinel (by cases sentinel <;> decide)
    · intro h sentinel _
      simpa using h sentinel
  rw [← hreserved]
  unfold checkOpcode
  simp only
  cases hname : Sentinel.all.find? (·.name == identOf record.opcode) with
  | some sentinel => exact ⟨nofun, nofun⟩
  | none =>
    cases hseen : builder.seen.find? (identOf record.opcode) with
    | some line => exact ⟨nofun, nofun⟩
    | none => exact ⟨fun _ => ⟨rfl, rfl⟩, fun _ => rfl⟩

theorem addRecord_eq_ok_iff {controlFlow : List String} {builder builder' : Builder}
    {record : Record} :
    addRecord controlFlow builder record = .ok builder' ↔
      checkOpcode builder record = .ok () ∧ ∃ instruction fields,
        resolveRecord builder.fields controlFlow record = .ok (instruction, fields) ∧
        builder' = ⟨builder.instructions ++ [instruction], fields,
          builder.seen.insert (identOf record.opcode) record.line⟩ := by
  simp only [addRecord, bind_eq_ok_iff]
  constructor
  · rintro ⟨_, hcheck, ⟨instruction, fields⟩, hresolve, h⟩
    cases h
    exact ⟨hcheck, instruction, fields, hresolve, rfl⟩
  · rintro ⟨hcheck, instruction, fields, hresolve, rfl⟩
    exact ⟨(), hcheck, (instruction, fields), hresolve, rfl⟩

theorem addRecords_cons_eq_ok_iff {controlFlow : List String} {builder builder' : Builder}
    {record : Record} {rest : List Record} :
    addRecords controlFlow builder (record :: rest) = .ok builder' ↔
      ∃ next, addRecord controlFlow builder record = .ok next ∧
        addRecords controlFlow next rest = .ok builder' := by
  rw [addRecords]
  cases addRecord controlFlow builder record with
  | error e => exact ⟨nofun, nofun⟩
  | ok next => simp

/-- The pattern of a record declares the given bits for a name. -/
def Declares (name : String) (range : BitRange) (record : Record) : Prop :=
  ∃ layout, Layout.resolve record.line record.bitPattern = .ok layout ∧
    ∃ field ∈ layout.fields, field.name = name ∧ field.range = range

/-- The instruction is what the record means where the given fields are declared. -/
def Resolves (fields : FieldRegistry) (controlFlow : List String) (record : Record)
    (instruction : Instruction) : Prop :=
  ∃ layout slots, Layout.resolve record.line record.bitPattern = .ok layout ∧
    Operand.resolve record.line record.operands layout.width fields = .ok slots ∧
    instruction = assemble controlFlow record layout slots

theorem Resolves.mono {fields fields' : FieldRegistry} (hext : fields.Extends fields')
    {controlFlow : List String} {record : Record} {instruction : Instruction}
    (h : Resolves fields controlFlow record instruction) :
    Resolves fields' controlFlow record instruction := by
  obtain ⟨layout, slots, hlayout, hslots, hinstruction⟩ := h
  exact ⟨layout, slots, hlayout, Operand.resolve_mono hext hslots, hinstruction⟩

theorem Resolves.ident_eq {fields : FieldRegistry} {controlFlow : List String} {record : Record}
    {instruction : Instruction} (h : Resolves fields controlFlow record instruction) :
    instruction.ident = identOf record.opcode := by
  obtain ⟨layout, slots, _, _, rfl⟩ := h
  rfl

/-- What adding records does: every instruction is what its record means where all fields are declared, the fields are
those of the records, and no identifier is reserved or used twice. -/
structure Added (controlFlow : List String) (builder : Builder) (records : List Record)
    (builder' : Builder) (resolved : List Instruction) : Prop where
  instructions : builder'.instructions = builder.instructions ++ resolved
  resolves : List.Forall₂ (Resolves builder'.fields controlFlow) records resolved
  fields (name : String) (range : BitRange) : builder'.fields.rangeOf? name = some range ↔
    builder.fields.rangeOf? name = some range ∨ ∃ record ∈ records, Declares name range record
  fresh : ∀ record ∈ records, builder.seen.find? (identOf record.opcode) = none
  unreserved : ∀ record ∈ records, ∀ sentinel : Sentinel, sentinel.name ≠ identOf record.opcode
  nodup : (records.map fun record => identOf record.opcode).Nodup

theorem addRecords_added {controlFlow : List String} {builder builder' : Builder}
    {records : List Record} (h : addRecords controlFlow builder records = .ok builder') :
    ∃ resolved, Added controlFlow builder records builder' resolved := by
  induction records generalizing builder with
  | nil =>
    cases h
    exact ⟨[], by simp, .nil, by simp, nofun, nofun, .nil⟩
  | cons record rest ih =>
    obtain ⟨next, hadd, hrest⟩ := addRecords_cons_eq_ok_iff.mp h
    obtain ⟨resolved, H⟩ := ih hrest
    obtain ⟨hcheck, instruction, fields, hresolve, rfl⟩ := addRecord_eq_ok_iff.mp hadd
    obtain ⟨hunreserved, hfresh⟩ := checkOpcode_eq_ok_iff.mp hcheck
    obtain ⟨layout, slots, hlayout, hfields, hslots, hinstruction⟩ :=
      resolveRecord_eq_ok_iff.mp hresolve
    have hext : fields.Extends builder'.fields :=
      fun name range hname => (H.fields name range).mpr (.inl hname)
    have hlater : ∀ later ∈ rest, identOf record.opcode ≠ identOf later.opcode ∧
        builder.seen.find? (identOf later.opcode) = none := by
      intro later hmem
      have := H.fresh later hmem
      rw [NameMap.find?_insert] at this
      split at this
      · cases this
      · next hne => exact ⟨hne, this⟩
    refine ⟨instruction :: resolved, ?_, ?_, fun name range => ?_, ?_, ?_, ?_⟩
    · rw [H.instructions, List.append_assoc, List.singleton_append]
    · exact .cons (Resolves.mono hext ⟨layout, slots, hlayout, hslots, hinstruction⟩) H.resolves
    · rw [H.fields, FieldRegistry.rangeOf?_registerAll hfields, List.exists_mem_cons_iff, or_assoc]
      refine or_congr_right (or_congr_left ?_)
      constructor
      · exact fun hfield => ⟨layout, hlayout, hfield⟩
      · rintro ⟨layout', hlayout', hfield⟩
        cases hlayout.symm.trans hlayout'
        exact hfield
    · exact List.forall_mem_cons.mpr ⟨hfresh, fun later hmem => (hlater later hmem).2⟩
    · exact List.forall_mem_cons.mpr ⟨hunreserved, H.unreserved⟩
    · refine List.nodup_cons.mpr ⟨fun hmem => ?_, H.nodup⟩
      obtain ⟨later, hlater', heq⟩ := List.mem_map.mp hmem
      exact (hlater later hlater').1 heq.symm

/-! ### Tables -/

theorem filter_arrange (width : Width) (instructions : List Instruction) :
    (arrange instructions).filter (·.width = width) = instructions.filter (·.width = width) := by
  have hother : ∀ a b : Width, a ≠ b →
      (instructions.filter (·.width = a)).filter (·.width = b) = [] := by
    intro a b hab
    refine List.filter_eq_nil_iff.mpr fun i hi => ?_
    have := (List.mem_filter.mp hi).2
    simp_all
  rw [arrange, List.filter_append]
  cases width with
  | compressed =>
    rw [hother .standard .compressed (by decide), List.append_nil, List.filter_filter]
    simp
  | standard =>
    rw [hother .compressed .standard (by decide), List.nil_append, List.filter_filter]
    simp

theorem arrange_arrange (instructions : List Instruction) :
    arrange (arrange instructions) = arrange instructions := by
  rw [arrange, filter_arrange, filter_arrange, arrange]

theorem arrange_perm (instructions : List Instruction) : (arrange instructions).Perm instructions := by
  have hnot : instructions.filter (·.width = .standard) =
      instructions.filter (fun i => !decide (i.width = .compressed)) := by
    refine List.filter_congr fun i _ => ?_
    cases i.width <;> rfl
  rw [arrange, hnot]
  exact List.filter_append_perm _ _

theorem mem_arrange {instructions : List Instruction} {i : Instruction} :
    i ∈ arrange instructions ↔ i ∈ instructions :=
  (arrange_perm instructions).mem_iff

/-- What a table has to do with the records that it was built from. -/
structure Describes (records : List Record) (controlFlow : List String) (table : Table)
    (resolved : List Instruction) : Prop where
  instructions : table.instructions = arrange resolved
  resolves : List.Forall₂ (Resolves table.fields controlFlow) records resolved
  fields (name : String) (range : BitRange) :
    table.fields.rangeOf? name = some range ↔ ∃ record ∈ records, Declares name range record
  unreserved : ∀ record ∈ records, ∀ sentinel : Sentinel, sentinel.name ≠ identOf record.opcode
  nodup : (records.map fun record => identOf record.opcode).Nodup

theorem ofRecords_describes {records : List Record} {controlFlow : List String} {table : Table}
    (h : ofRecords records controlFlow = .ok table) :
    ∃ resolved, Describes records controlFlow table resolved := by
  rw [ofRecords] at h
  split at h
  · cases h
  · next builder hadd =>
    cases h
    obtain ⟨resolved, H⟩ := addRecords_added hadd
    refine ⟨resolved, ?_, H.resolves, fun name range => ?_, H.unreserved, H.nodup⟩
    · exact congrArg arrange (H.instructions.trans (List.nil_append _))
    · refine (H.fields name range).trans (or_iff_right ?_)
      exact nofun

/-- Every instruction of a table is what one of the records means. -/
theorem Describes.exists_record {records : List Record} {controlFlow : List String} {table : Table}
    {resolved : List Instruction} (H : Describes records controlFlow table resolved) {i : Instruction}
    (hi : i ∈ table.instructions) : ∃ record ∈ records, Resolves table.fields controlFlow record i := by
  rw [H.instructions, mem_arrange] at hi
  exact exists_left_of_forall₂ H.resolves hi

end Table

/-! ### Well-formed instructions and tables -/

/-- What a slice of an instruction of the given width keeps to. -/
def Slice.Fits (width : Width) (slice : Slice) : Prop :=
  0 < slice.width ∧ slice.position + slice.width ≤ width.bits ∧ slice.shift + slice.width ≤ 32

structure Instruction.WellFormed (instruction : Instruction) : Prop where
  mask_below {k : Nat} : instruction.mask.getLsbD k = true → k < instruction.width.bits
  match_within : instruction.matchValue &&& instruction.mask = instruction.matchValue
  slices : ∀ immediate ∈ instruction.immediate, ∀ slice ∈ immediate.slices,
    slice.Fits instruction.width
  slots : ∀ slot ∈ instruction.slots.toList, slot.Fits instruction.width

theorem Table.Resolves.wellFormed {fields : FieldRegistry} {controlFlow : List String}
    {record : Record} {instruction : Instruction}
    (h : Resolves fields controlFlow record instruction) : instruction.WellFormed := by
  obtain ⟨layout, slots, hlayout, hslots, rfl⟩ := h
  obtain ⟨tokens, _, _, H⟩ := Layout.resolve_eq_ok_iff.mp hlayout
  refine ⟨fun {k} hk => ?_, ?_, ?_, Operand.resolve_fits hslots⟩
  · obtain ⟨bit, hbit⟩ := (H.mask k).mp hk
    refine Nat.lt_of_not_le fun hle => ?_
    rw [Pattern.cellAt_eq_none (H.width ▸ hle)] at hbit
    cases hbit
  · refine BitVec.eq_of_getLsbD_eq fun k _ => ?_
    rw [BitVec.getLsbD_and, Bool.and_eq_left_iff_imp]
    intro hk
    exact (H.mask k).mpr ⟨true, (H.matchValue k).mp hk⟩
  · intro immediate himmediate slice hslice
    have hslices : layout.slices = immediate.slices := by
      rw [Layout.slices, show layout.immediate = some immediate from himmediate]
      rfl
    rw [← hslices, H.slices_eq] at hslice
    obtain ⟨hpos, hend, hshift⟩ := Pattern.slice_bounds H.legal hslice
    exact ⟨hpos, H.width ▸ hend, hshift⟩

/-- What holds of every table of a description. -/
structure Table.WellFormed (table : Table) : Prop where
  arranged : arrange table.instructions = table.instructions
  instructions : ∀ i ∈ table.instructions, i.WellFormed
  nodup : (table.instructions.map Instruction.ident).Nodup
  unreserved : ∀ i ∈ table.instructions, ∀ sentinel : Sentinel, sentinel.name ≠ i.ident

theorem Table.Describes.wellFormed {records : List Record} {controlFlow : List String}
    {table : Table} {resolved : List Instruction}
    (H : Describes records controlFlow table resolved) : table.WellFormed := by
  have hident : records.map (fun record => identOf record.opcode) =
      resolved.map Instruction.ident := by
    have hrelated : List.Forall₂ (· = ·) (records.map fun record => identOf record.opcode)
        (resolved.map Instruction.ident) := by
      rw [List.forall₂_map_left_iff, List.forall₂_map_right_iff]
      exact H.resolves.imp fun record i h => h.ident_eq.symm
    rwa [List.forall₂_eq_eq_eq] at hrelated
  refine ⟨?_, fun i hi => ?_, ?_, fun i hi => ?_⟩
  · rw [H.instructions, arrange_arrange]
  · obtain ⟨_, _, hi⟩ := H.exists_record hi
    exact hi.wellFormed
  · rw [H.instructions, ((arrange_perm resolved).map _).nodup_iff, ← hident]
    exact H.nodup
  · obtain ⟨record, hrecord, hi⟩ := H.exists_record hi
    rw [hi.ident_eq]
    exact H.unreserved record hrecord

theorem Table.ofRecords_wellFormed {records : List Record} {controlFlow : List String}
    {table : Table} (h : ofRecords records controlFlow = .ok table) : table.WellFormed := by
  obtain ⟨_, H⟩ := ofRecords_describes h
  exact H.wellFormed

/-! ### The two widths of a table -/

theorem Table.standard_stops (instructions : List Instruction) :
    Grammar.Stops (·.width = .compressed) (instructions.filter (·.width = .standard)) := by
  intro i hi
  have := (List.mem_filter.mp (List.mem_of_mem_head? hi)).2
  simp_all

namespace Table.WellFormed

variable {table : Table} (H : table.WellFormed)
include H

theorem compressed_eq : table.compressed = table.instructions.filter (·.width = .compressed) := by
  rw [compressed]
  nth_rewrite 1 [← H.arranged]
  exact Grammar.takeWhile_run (fun i hi => (List.mem_filter.mp hi).2) (standard_stops _)

theorem standard_eq : table.standard = table.instructions.filter (·.width = .standard) := by
  rw [standard]
  nth_rewrite 1 [← H.arranged]
  exact Grammar.dropWhile_run (fun i hi => (List.mem_filter.mp hi).2) (standard_stops _)

end Table.WellFormed

/-! ### Selecting an instruction -/

/-- Which instruction decoding finds, if it finds one. -/
def Table.select? (table : Table) (word : Word) (available : Nat) : Option Instruction :=
  table.instructions.find? fun i => i.width.bytes ≤ available && i.accepts word

/-- What decoding says of a word that it found the instruction for. -/
def Instruction.decodedIn (instruction : Instruction) (word : Word) : Decoded :=
  ⟨.instruction instruction, instruction.slots.map (·.extract word),
    instruction.immediate.elim 0 (·.reconstruct word)⟩

/-- What decoding says of a word that it found no instruction for. -/
def Table.undecoded (available : Nat) : Decoded :=
  ⟨.sentinel (unmatched available), ⟨noRegister, noRegister, noRegister, noRegister⟩, 0⟩

theorem Table.decode_eq (table : Table) (word : Word) (available : Nat) :
    table.decode word available =
      (table.select? word available).elim (undecoded available) (·.decodedIn word) := by
  unfold decode select?
  split
  · next i hi =>
    rw [hi, Option.elim_some, Instruction.decodedIn]
    cases i.immediate <;> rfl
  · next hi =>
    rw [hi]
    rfl

theorem Table.entry_decode_eq_iff {table : Table} {word : Word} {available : Nat}
    {i : Instruction} :
    (table.decode word available).entry = .instruction i ↔ table.select? word available = some i := by
  rw [decode_eq]
  cases table.select? word available with
  | none => exact ⟨nofun, nofun⟩
  | some j => exact Entry.instruction.injEq j i ▸ Option.some_inj.symm

end IsaForge
