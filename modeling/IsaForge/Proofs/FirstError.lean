import IsaForge.Proofs.FieldDeclarations
import IsaForge.Proofs.IdleLines

/-!
Which error is reported. The records of a description are added one after another, so a description is refused for the
first record that does not go with those before it (`Table.addRecords_eq_error_iff`). `Table.Refused` says what can be
wrong with such a record; where it repeats an opcode or moves a field, the error points at what it collides with. The
lines of a description are read one after another too (`Record.parseLines_eq`).
-/

namespace IsaForge

/-! ### Errors of mapped lists -/

section

variable {ε α β : Type} {f : α → Except ε β}

theorem mapM_eq_ok_iff_forall₂ {as : List α} {bs : List β} :
    as.mapM f = .ok bs ↔ List.Forall₂ (fun a b => f a = .ok b) as bs := by
  induction as generalizing bs with
  | nil =>
    rw [List.mapM_nil, List.forall₂_nil_left_iff]
    exact ⟨fun h => (Except.ok.inj h).symm, fun h => h ▸ rfl⟩
  | cons a as ih =>
    rw [List.mapM_cons]
    simp only [bind_eq_ok_iff, ih, List.forall₂_cons_left_iff]
    constructor
    · rintro ⟨b, hb, rest, hrest, h⟩
      exact ⟨b, rest, hb, hrest, (Except.ok.inj h).symm⟩
    · rintro ⟨b, rest, hb, hrest, rfl⟩
      exact ⟨b, hb, rest, hrest, rfl⟩

theorem mapM_eq_error_iff {as : List α} {error : ε} :
    as.mapM f = .error error ↔
      ∃ before a after, as = before ++ a :: after ∧ (∀ x ∈ before, ∃ b, f x = .ok b) ∧ f a = .error error := by
  constructor
  · intro h
    induction as with
    | nil => cases h
    | cons a as ih =>
      rw [List.mapM_cons] at h
      rcases bind_eq_error_iff.mp h with ha | ⟨b, ha, h⟩
      · exact ⟨[], a, as, rfl, nofun, ha⟩
      · rcases bind_eq_error_iff.mp h with hrest | ⟨bs, -, h⟩
        · obtain ⟨before, x, after, rfl, hbefore, hx⟩ := ih hrest
          exact ⟨a :: before, x, after, rfl, List.forall_mem_cons.mpr ⟨⟨b, ha⟩, hbefore⟩, hx⟩
        · cases h
  · rintro ⟨before, a, after, rfl, hbefore, ha⟩
    induction before with
    | nil =>
      rw [List.nil_append, List.mapM_cons, ha]
      rfl
    | cons x before ih =>
      obtain ⟨⟨b, hb⟩, hbefore⟩ := List.forall_mem_cons.mp hbefore
      rw [List.cons_append, List.mapM_cons, bind_eq_error_iff]
      refine .inr ⟨b, hb, ?_⟩
      rw [ih hbefore]
      rfl

end

/-! ### Errors of the columns -/

theorem Layout.resolve_eq_error {line : Nat} {pattern : String} {error : Error}
    (h : resolve line pattern = .error error) :
    (∃ fault, error = .malformedRecord line .bitPattern fault) ∨ ∃ bits, error = .illegalWidth line bits pattern := by
  unfold resolve at h
  split at h
  · cases h
    exact .inl ⟨_, rfl⟩
  · split at h
    · cases h
      exact .inl ⟨_, rfl⟩
    · split at h
      · cases h
        exact .inr ⟨_, rfl⟩
      · cases h

theorem Operand.exists_illegalOperand {line : Nat} {list : String} {width : Width} {registry : FieldRegistry}
    {error : Error} (h : resolve line list width registry = .error error) :
    ∃ specifier fault, error = .illegalOperand line specifier fault := by
  cases hread : Grammar.readAll operandList list.toList with
  | error failure =>
    unfold resolve at h
    simp only [hread] at h
    cases h
    exact ⟨_, _, rfl⟩
  | ok operands =>
    rcases resolve_eq_error hread h with ⟨operand, -, -, fault, rfl⟩ | ⟨-, fault, rfl⟩
    · exact ⟨_, fault, rfl⟩
    · exact ⟨_, fault, rfl⟩

/-- Fields are refused at the first that is held with other bits once those before it are declared. -/
theorem FieldRegistry.registerAll_eq_error {registry : FieldRegistry} {line : Nat} {fields : List NamedField}
    {error : Error} (h : registry.registerAll line fields = .error error) :
    ∃ before field after held, fields = before ++ field :: after ∧
      (registry.declareAll (Declaration.onLine line before)).find? field.name = some held ∧ held.range ≠ field.range ∧
      error = .fieldRedefinition line field.name field.range held.line held.range := by
  induction fields generalizing registry with
  | nil => cases h
  | cons field fields ih =>
    rw [registerAll_cons] at h
    rcases bind_eq_error_iff.mp h with hfield | ⟨next, hfield, hrest⟩
    · obtain ⟨held, hheld, hrange, rfl⟩ := register_eq_error_iff.mp hfield
      exact ⟨[], field, fields, held, rfl, hheld, hrange, rfl⟩
    · obtain ⟨before, other, after, held, rfl, hheld, hother⟩ := ih hrest
      have hnext : registry.declare ⟨field, line⟩ = next := declare_of_ok hfield
      refine ⟨field :: before, other, after, held, rfl, ?_, hother⟩
      rwa [Declaration.onLine, List.map_cons, declareAll, List.foldl_cons, hnext]

/-! ### The first record that is refused -/

namespace Table

variable {controlFlow : List String}

/-- What can be wrong with a record after others. -/
inductive Refused (builder : Builder) (record : Record) : Error → Prop
  | reservedOpcode {reserved : String} : Refused builder record (.reservedOpcode record.line record.opcode reserved)
  | duplicateOpcode {previousLine : Nat} : builder.seen.find? (identOf record.opcode) = some previousLine →
    Refused builder record (.duplicateOpcode record.line record.opcode previousLine)
  | malformedRecord {fault : RecordFault} : Refused builder record (.malformedRecord record.line .bitPattern fault)
  | illegalWidth {bits : Nat} : Refused builder record (.illegalWidth record.line bits record.bitPattern)
  | fieldRedefinition {layout : Layout} {before after : List NamedField} {field : NamedField} {held : RegisteredField} :
    Layout.resolve record.line record.bitPattern = .ok layout → layout.fields = before ++ field :: after →
    (builder.fields.declareAll (Declaration.onLine record.line before)).find? field.name = some held →
    held.range ≠ field.range →
    Refused builder record (.fieldRedefinition record.line field.name field.range held.line held.range)
  | illegalOperand {specifier : String} {fault : OperandFault} :
    Refused builder record (.illegalOperand record.line specifier fault)

theorem refused_of_checkOpcode {builder : Builder} {record : Record} {error : Error}
    (h : checkOpcode builder record = .error error) : Refused builder record error := by
  unfold checkOpcode at h
  simp only at h
  split at h
  · cases h
    exact .reservedOpcode
  · split at h
    · next hseen =>
      cases h
      exact .duplicateOpcode hseen
    · cases h

theorem refused_of_resolveRecord {builder : Builder} {record : Record} {error : Error}
    (h : resolveRecord builder.fields controlFlow record = .error error) : Refused builder record error := by
  rw [resolveRecord] at h
  rcases bind_eq_error_iff.mp h with hlayout | ⟨layout, hlayout, h⟩
  · rcases Layout.resolve_eq_error hlayout with ⟨fault, rfl⟩ | ⟨bits, rfl⟩
    · exact .malformedRecord
    · exact .illegalWidth
  · rcases bind_eq_error_iff.mp h with hfields | ⟨fields, -, h⟩
    · obtain ⟨before, field, after, held, happend, hheld, hrange, rfl⟩ :=
        FieldRegistry.registerAll_eq_error hfields
      exact .fieldRedefinition hlayout happend hheld hrange
    · rcases bind_eq_error_iff.mp h with hslots | ⟨slots, -, h⟩
      · obtain ⟨specifier, fault, rfl⟩ := Operand.exists_illegalOperand hslots
        exact .illegalOperand
      · cases h

theorem refused_of_addRecord {builder : Builder} {record : Record} {error : Error}
    (h : addRecord controlFlow builder record = .error error) : Refused builder record error := by
  rw [addRecord] at h
  rcases bind_eq_error_iff.mp h with hcheck | ⟨-, -, h⟩
  · exact refused_of_checkOpcode hcheck
  · rcases bind_eq_error_iff.mp h with hresolve | ⟨resolved, -, h⟩
    · exact refused_of_resolveRecord hresolve
    · cases h

theorem Refused.line?_eq {builder : Builder} {record : Record} {error : Error} (h : Refused builder record error) :
    error.line? = some record.line := by
  cases h <;> rfl

/-- Further records are added to what is known after the records before them. -/
theorem addRecords_append {builder next : Builder} {before : List Record}
    (h : addRecords controlFlow builder before = .ok next) (after : List Record) :
    addRecords controlFlow builder (before ++ after) = addRecords controlFlow next after := by
  induction before generalizing builder with
  | nil =>
    cases h
    rfl
  | cons record before ih =>
    obtain ⟨mid, hadd, hbefore⟩ := addRecords_cons_eq_ok_iff.mp h
    rw [List.cons_append, addRecords, hadd]
    exact ih hbefore

theorem addRecords_singleton (builder : Builder) (record : Record) :
    addRecords controlFlow builder [record] = addRecord controlFlow builder record := by
  rw [addRecords]
  cases addRecord controlFlow builder record <;> rfl

/-- Records are refused for the first that is refused after those before it. -/
theorem addRecords_eq_error_iff {builder : Builder} {records : List Record} {error : Error} :
    addRecords controlFlow builder records = .error error ↔
      ∃ before record after next, records = before ++ record :: after ∧
        addRecords controlFlow builder before = .ok next ∧ addRecord controlFlow next record = .error error := by
  constructor
  · intro h
    induction records generalizing builder with
    | nil => cases h
    | cons record records ih =>
      rw [addRecords] at h
      cases hadd : addRecord controlFlow builder record with
      | error other =>
        rw [hadd] at h
        cases h
        exact ⟨[], record, records, builder, rfl, rfl, hadd⟩
      | ok next =>
        rw [hadd] at h
        obtain ⟨before, refused, after, last, rfl, hbefore, hrefused⟩ := ih h
        refine ⟨record :: before, refused, after, last, rfl, ?_, hrefused⟩
        exact addRecords_cons_eq_ok_iff.mpr ⟨next, hadd, hbefore⟩
  · rintro ⟨before, record, after, next, rfl, hbefore, hrefused⟩
    rw [addRecords_append hbefore, addRecords, hrefused]

theorem ofRecords_eq_error_iff {records : List Record} {error : Error} :
    ofRecords records controlFlow = .error error ↔ addRecords controlFlow {} records = .error error := by
  rw [ofRecords]
  cases addRecords controlFlow {} records <;> simp

theorem exists_ofRecords_iff {records : List Record} :
    (∃ table, ofRecords records controlFlow = .ok table) ↔ ∃ next, addRecords controlFlow {} records = .ok next := by
  rw [ofRecords]
  cases addRecords controlFlow {} records <;> simp

section

variable {before : List Record} {record : Record} {next : Builder}
  (hbefore : addRecords controlFlow {} before = .ok next)
include hbefore

theorem ofRecords_snoc_eq_error_iff {error : Error} :
    ofRecords (before ++ [record]) controlFlow = .error error ↔ addRecord controlFlow next record = .error error := by
  rw [ofRecords_eq_error_iff, addRecords_append hbefore, addRecords_singleton]

theorem ofRecords_append_eq_error {error : Error} (h : addRecord controlFlow next record = .error error)
    (after : List Record) : ofRecords (before ++ [record] ++ after) controlFlow = .error error := by
  rw [ofRecords_eq_error_iff, addRecords_eq_error_iff]
  exact ⟨before, record, after, next, List.append_cons before record after ▸ rfl, hbefore, h⟩

/-- What is held after records and fields of a further one is what is declared first. -/
theorem find?_declareAll_fields (fields : List NamedField) (line : Nat) (name : String) :
    (next.fields.declareAll (Declaration.onLine line fields)).find? name =
      Declaration.first? (before.flatMap Record.declarations ++ Declaration.onLine line fields) name := by
  have hfields : next.fields = FieldRegistry.declareAll [] (before.flatMap Record.declarations) :=
    addRecords_fields hbefore
  rw [hfields, ← FieldRegistry.declareAll_append, FieldRegistry.find?_declareAll]
  rfl

end

/-- An opcode was seen on the line of the record that has it. -/
theorem addRecords_seen {builder builder' : Builder} {records : List Record}
    (h : addRecords controlFlow builder records = .ok builder') {ident : String} {line : Nat}
    (hseen : builder'.seen.find? ident = some line) :
    builder.seen.find? ident = some line ∨ ∃ record ∈ records, identOf record.opcode = ident ∧ record.line = line := by
  induction records generalizing builder with
  | nil =>
    cases h
    exact .inl hseen
  | cons record records ih =>
    obtain ⟨next, hadd, hrest⟩ := addRecords_cons_eq_ok_iff.mp h
    obtain ⟨-, instruction, fields, -, rfl⟩ := addRecord_eq_ok_iff.mp hadd
    rcases ih hrest with hnext | ⟨later, hlater, hident⟩
    · rw [NameMap.find?_insert] at hnext
      split at hnext
      · next hident =>
        cases hnext
        exact .inr ⟨record, List.mem_cons_self, hident, rfl⟩
      · exact .inl hnext
    · exact .inr ⟨later, List.mem_cons_of_mem _ hlater, hident⟩

/-- An opcode that was seen is that of one record. -/
theorem exists_unique_seen {records : List Record} {builder : Builder}
    (h : addRecords controlFlow {} records = .ok builder) {ident : String} {line : Nat}
    (hseen : builder.seen.find? ident = some line) :
    ∃ record ∈ records, identOf record.opcode = ident ∧ record.line = line ∧
      ∀ other ∈ records, identOf other.opcode = ident → other = record := by
  obtain ⟨resolved, H⟩ := addRecords_added h
  rcases addRecords_seen h hseen with hempty | ⟨record, hrecord, hident, hline⟩
  · cases hempty
  · refine ⟨record, hrecord, hident, hline, ?_⟩
    intro other hother hsame
    exact List.inj_on_of_nodup_map H.nodup hother hrecord (hsame.trans hident.symm)

end Table

/-! ### The first line that is refused -/

namespace Record

/-- The lines of a description with their numbers, from one up. -/
def numberedLines (source : String) : List (String × Nat) :=
  (Text.lines source).zipIdx 1

theorem parseLines_eq (first : Nat) (texts : List String) :
    parseLines first texts = ((texts.zipIdx first).mapM fun x => parseLine x.2 x.1).map List.reduceOption := by
  induction texts generalizing first with
  | nil => rfl
  | cons text texts ih =>
    rw [parseLines, List.zipIdx_cons, List.mapM_cons, ih]
    cases parseLine first text with
    | error error => rfl
    | ok record? =>
      cases (texts.zipIdx (first + 1)).mapM fun x => parseLine x.2 x.1 with
      | error error => rfl
      | ok found => cases record? <;> rfl

theorem parseSource_eq_error_iff {source : String} {error : Error} :
    parseSource source = .error error ↔
      ∃ before x after, numberedLines source = before ++ x :: after ∧
        (∀ x ∈ before, ∃ record?, parseLine x.2 x.1 = .ok record?) ∧ parseLine x.2 x.1 = .error error := by
  rw [← mapM_eq_error_iff, parseSource, parseLines_eq, numberedLines]
  cases ((Text.lines source).zipIdx 1).mapM fun x => parseLine x.2 x.1 <;> simp [Except.map]

theorem parseSource_eq_ok_iff {source : String} {records : List Record} :
    parseSource source = .ok records ↔
      ∃ found, List.Forall₂ (fun x record? => parseLine x.2 x.1 = .ok record?) (numberedLines source) found ∧
        found.reduceOption = records := by
  simp only [← mapM_eq_ok_iff_forall₂]
  rw [parseSource, parseLines_eq, numberedLines]
  cases ((Text.lines source).zipIdx 1).mapM fun x => parseLine x.2 x.1 <;> simp [Except.map]

theorem exists_parseSource_eq_error_iff {source : String} :
    (∃ error, parseSource source = .error error) ↔
      ∃ x ∈ numberedLines source, ∃ error, parseLine x.2 x.1 = .error error := by
  constructor
  · rintro ⟨error, h⟩
    obtain ⟨before, x, after, happend, -, hx⟩ := parseSource_eq_error_iff.mp h
    exact ⟨x, happend ▸ List.mem_append_right before List.mem_cons_self, error, hx⟩
  · rintro ⟨x, hx, error, herror⟩
    cases h : parseSource source with
    | error other => exact ⟨other, rfl⟩
    | ok records =>
      obtain ⟨found, hfound, -⟩ := parseSource_eq_ok_iff.mp h
      obtain ⟨record?, -, hparse⟩ := exists_right_of_forall₂ hfound hx
      rw [herror] at hparse
      cases hparse

theorem line_of_parseLine {line : Nat} {text : String} {record : Record}
    (h : parseLine line text = .ok (some record)) : record.line = line := by
  rw [parseLine_eq] at h
  split at h
  · cases h
  · unfold parseRow at h
    split at h
    · cases h
    · split at h
      · cases h
      · cases h
        rfl

/-- The lines that hold a record are those that are not idle. -/
theorem forall₂_busy {numbered : List (String × Nat)} {found : List (Option Record)}
    (h : List.Forall₂ (fun x record? => parseLine x.2 x.1 = .ok record?) numbered found) :
    List.Forall₂ (fun x record => parseLine x.2 x.1 = .ok (some record))
      (numbered.filter fun x => !isIdle (Text.trimChars x.1.toList)) found.reduceOption := by
  induction h with
  | nil => exact .nil
  | @cons x record? numbered found hx _ ih =>
    have hparse := hx
    rw [parseLine_eq] at hparse
    by_cases hidle : isIdle (Text.trimChars x.1.toList) = true
    · rw [if_pos hidle] at hparse
      cases hparse
      rw [List.filter_cons_of_neg (by simp [hidle])]
      exact ih
    · rw [if_neg hidle] at hparse
      rw [List.filter_cons_of_pos (by simp [hidle])]
      cases hrow : parseRow x.2 (Text.trimChars x.1.toList) with
      | error error => rw [hrow] at hparse; cases hparse
      | ok record =>
        rw [hrow] at hparse
        cases hparse
        exact .cons hx ih

theorem pairwise_numberedLines (source : String) (p : String × Nat → Bool) :
    (((numberedLines source).filter p).map Prod.snd).Pairwise (· < ·) := by
  have hsublist : (((numberedLines source).filter p).map Prod.snd).Sublist ((numberedLines source).map Prod.snd) :=
    List.filter_sublist.map _
  apply List.Pairwise.sublist hsublist
  rw [numberedLines, List.zipIdx_map_snd]
  exact List.pairwise_lt_range'

end Record

/-- Records are refused exactly if a first part of them is accepted and is not accepted with the next record, and then
for the same reason. The reason names the line of that record and does not depend on what follows it. A repeated
opcode is traced to the one record before that has it, and a field with other bits to its first declaration, which is
in a record before or among the fields of the record itself, from the lowest bit up.

The source is refused exactly if a line of it is, and then for the first such line. Otherwise its records are those of
the lines that are neither blank nor a comment, in order, each with the number of its line. -/
theorem first_error :
    (∀ (records : List Record) (controlFlow : List String) (error : Error),
      Table.ofRecords records controlFlow = .error error ↔
        ∃ before record after, records = before ++ [record] ++ after ∧
          (∃ table, Table.ofRecords before controlFlow = .ok table) ∧
          Table.ofRecords (before ++ [record]) controlFlow = .error error) ∧
    (∀ (before : List Record) (record : Record) (controlFlow : List String) (table : Table) (error : Error),
      Table.ofRecords before controlFlow = .ok table →
      Table.ofRecords (before ++ [record]) controlFlow = .error error →
      error.line? = some record.line ∧
      (∀ after, Table.ofRecords (before ++ [record] ++ after) controlFlow = .error error) ∧
      (∀ line opcode previousLine, error = .duplicateOpcode line opcode previousLine →
        ∃ earlier ∈ before, identOf earlier.opcode = identOf record.opcode ∧ earlier.line = previousLine ∧
          ∀ other ∈ before, identOf other.opcode = identOf record.opcode → other = earlier) ∧
      ∀ line name range previousLine previous, error = .fieldRedefinition line name range previousLine previous →
        ∃ layout early field late, Layout.resolve record.line record.bitPattern = .ok layout ∧
          layout.fields = early ++ field :: late ∧ field.name = name ∧ field.range = range ∧ previous ≠ range ∧
          Declaration.first? (before.flatMap Record.declarations ++ Declaration.onLine record.line early) name =
            some ⟨previous, previousLine⟩) ∧
    ∀ source : String,
      (∀ error, Record.parseSource source = .error error ↔
        ∃ before x after, Record.numberedLines source = before ++ x :: after ∧
          (∀ y ∈ before, ∃ record?, Record.parseLine y.2 y.1 = .ok record?) ∧
          Record.parseLine x.2 x.1 = .error error) ∧
      ((∃ error, Record.parseSource source = .error error) ↔
        ∃ x ∈ Record.numberedLines source, ∃ error, Record.parseLine x.2 x.1 = .error error) ∧
      ∀ records, Record.parseSource source = .ok records →
        let busy := (Record.numberedLines source).filter fun x => !Record.isIdle (Text.trimChars x.1.toList)
        List.Forall₂ (fun x record => Record.parseLine x.2 x.1 = .ok (some record)) busy records ∧
        records.map Record.line = busy.map Prod.snd ∧ (records.map Record.line).Pairwise (· < ·) := by
  refine ⟨?_, ?_, ?_⟩
  · intro records controlFlow error
    rw [Table.ofRecords_eq_error_iff, Table.addRecords_eq_error_iff]
    simp only [Table.exists_ofRecords_iff, List.append_assoc, List.singleton_append]
    constructor
    · rintro ⟨before, record, after, next, happend, hbefore, hrecord⟩
      exact ⟨before, record, after, happend, ⟨next, hbefore⟩,
        (Table.ofRecords_snoc_eq_error_iff hbefore).mpr hrecord⟩
    · rintro ⟨before, record, after, happend, ⟨next, hbefore⟩, hrecord⟩
      exact ⟨before, record, after, next, happend, hbefore,
        (Table.ofRecords_snoc_eq_error_iff hbefore).mp hrecord⟩
  · intro before record controlFlow table error htable herror
    obtain ⟨next, hbefore⟩ := Table.exists_ofRecords_iff.mp ⟨table, htable⟩
    rw [Table.ofRecords_snoc_eq_error_iff hbefore] at herror
    have hrefused := Table.refused_of_addRecord herror
    refine ⟨hrefused.line?_eq, Table.ofRecords_append_eq_error hbefore herror, ?_, ?_⟩
    · rintro line opcode previousLine rfl
      cases hrefused with
      | duplicateOpcode hseen => exact Table.exists_unique_seen hbefore hseen
    · rintro line name range previousLine previous rfl
      cases hrefused with
      | fieldRedefinition hlayout happend hheld hrange =>
        rw [Table.find?_declareAll_fields hbefore] at hheld
        exact ⟨_, _, _, _, hlayout, happend, rfl, rfl, hrange, hheld⟩
  · intro source
    refine ⟨fun error => Record.parseSource_eq_error_iff, Record.exists_parseSource_eq_error_iff, ?_⟩
    intro records h busy
    obtain ⟨found, hfound, rfl⟩ := Record.parseSource_eq_ok_iff.mp h
    have hbusy := Record.forall₂_busy hfound
    have hlines : found.reduceOption.map Record.line = busy.map Prod.snd := by
      rw [← List.forall₂_eq_eq_eq, List.forall₂_map_left_iff, List.forall₂_map_right_iff]
      exact hbusy.flip.imp fun record x hx => Record.line_of_parseLine hx
    refine ⟨hbusy, hlines, ?_⟩
    rw [hlines]
    exact Record.pairwise_numberedLines source _

/-- A record that declares a field over bits other than those it has in `sharingRecords`. -/
def movingRecord : Record :=
  { line := 7, provenance := {}, opcode := "c.move", assembly := "-", attributes := [],
    bitPattern := "000 rd[3] ........ 01", operands := "-", action := "" }

theorem first_error_movingRecord :
    (∃ error, Table.ofRecords (sharingRecords ++ [movingRecord] ++ sharingRecords) [] = .error error ∧
      error.line? = some 7) ∧
    Record.parseSource "# none\n+!\nadd" =
      .error (.malformedRecord 2 .opcode (.unreadable ⟨3, [.opcode], []⟩)) := by
  constructor
  · obtain ⟨table, htable, -⟩ : ∃ table, Table.ofRecords sharingRecords [] = .ok table ∧ true = true :=
      exists_ok_of_any (by decide +kernel)
    have herror : Table.ofRecords (sharingRecords ++ [movingRecord]) [] =
        .error (.fieldRedefinition 7 "rd" ⟨12, 10⟩ 2 ⟨11, 7⟩) := by decide +kernel
    obtain ⟨hline, hafter, -⟩ := first_error.2.1 _ _ _ _ _ htable herror
    exact ⟨_, hafter sharingRecords, hline⟩
  · apply ((first_error.2.2 _).1 _).mpr
    refine ⟨[("# none", 1)], ("+!", 2), [("add", 3)], by decide +kernel, ?_, by decide +kernel⟩
    intro y hy
    cases List.mem_singleton.mp hy
    exact ⟨none, by decide +kernel⟩

end IsaForge
