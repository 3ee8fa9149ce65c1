import IsaForge.OpcodeList
import IsaForge.Proofs.Classification
import IsaForge.Proofs.GeneratedDecoder
import IsaForge.Proofs.OperandText
import IsaForge.Proofs.RegisterNumbers

/-!
The declarations of named fields. A registry holds for each name what was declared for it first
(`FieldRegistry.find?_declareAll`): a declaration of other bits is refused, and one of the same bits changes nothing.
The registry of a table is that of all declarations of its records in a row (`Table.fields_eq`), and since none of
them was refused, all agree with the first. An operand that names a field therefore means the same bits wherever its
record stands, and they are the bits that the generated extractor of the field reads.
-/

namespace IsaForge

open Grammar

/-! ### Declarations -/

/-- A field and the line that declares it. -/
structure Declaration where
  field : NamedField
  line : Nat
deriving DecidableEq, Repr

namespace Declaration

/-- What a registry holds of a declaration. -/
def registered (declaration : Declaration) : RegisteredField :=
  ⟨declaration.field.range, declaration.line⟩

/-- The declarations of fields on one line. -/
def onLine (line : Nat) (fields : List NamedField) : List Declaration :=
  fields.map fun field => ⟨field, line⟩

/-- What is declared for a name first. -/
def first? (declarations : List Declaration) (name : String) : Option RegisteredField :=
  (declarations.find? (·.field.name = name)).map registered

@[simp] theorem first?_nil (name : String) : first? [] name = none := rfl

theorem first?_append (declarations later : List Declaration) (name : String) :
    first? (declarations ++ later) name = (first? declarations name).or (first? later name) := by
  simp only [first?, List.find?_append]
  cases declarations.find? (·.field.name = name) <;> simp

theorem first?_cons (declaration : Declaration) (later : List Declaration) (name : String) :
    first? (declaration :: later) name = (first? [declaration] name).or (first? later name) :=
  first?_append [declaration] later name

end Declaration

/-! ### Registries -/

namespace NameMap

variable {α : Type}

end NameMap

namespace FieldRegistry

theorem register_eq_error_iff {registry : FieldRegistry} {line : Nat} {field : NamedField} {error : Error} :
    registry.register line field = .error error ↔
      ∃ held, registry.find? field.name = some held ∧ held.range ≠ field.range ∧
        error = .fieldRedefinition line field.name field.range held.line held.range := by
  rw [register]
  cases hfound : registry.find? field.name with
  | none => simp
  | some held =>
    by_cases hrange : held.range = field.range
    · simp [hrange]
    · simp [hrange, eq_comm]

/-- The registry after a declaration, which is the same if the declaration is refused. -/
def declare (registry : FieldRegistry) (declaration : Declaration) : FieldRegistry :=
  (registry.registerUntil declaration.line [declaration.field]).1

/-- The registry after declarations in a row, whether they are refused or not. -/
def declareAll (registry : FieldRegistry) (declarations : List Declaration) : FieldRegistry :=
  declarations.foldl declare registry

variable {registry registry' : FieldRegistry} {declaration : Declaration}

theorem declare_of_ok (h : registry.register declaration.line declaration.field = .ok registry') :
    registry.declare declaration = registry' := by
  rw [declare, registerUntil, h]
  rfl

theorem declare_of_free (h : registry.find? declaration.field.name = none) :
    registry.declare declaration = NameMap.insert declaration.field.name declaration.registered registry := by
  apply declare_of_ok
  rw [register, h]
  rfl

theorem declare_of_held {held : RegisteredField} (h : registry.find? declaration.field.name = some held) :
    registry.declare declaration = registry := by
  rw [declare, registerUntil, register, h]
  by_cases hrange : held.range = declaration.field.range
  · simp [hrange, registerUntil]
  · simp [hrange]

/-- A declaration fills in a name that is free and changes nothing else. -/
theorem find?_declare (registry : FieldRegistry) (declaration : Declaration) (name : String) :
    (registry.declare declaration).find? name =
      (registry.find? name).or (Declaration.first? [declaration] name) := by
  cases hfound : registry.find? declaration.field.name with
  | none =>
    rw [declare_of_free hfound, NameMap.find?_insert]
    by_cases hname : declaration.field.name = name
    · simp [← hname, hfound, Declaration.first?]
    · simp [Declaration.first?, hname]
  | some held =>
    rw [declare_of_held hfound]
    by_cases hname : declaration.field.name = name
    · simp [← hname, hfound]
    · simp [Declaration.first?, hname]

/-- A name keeps what was declared for it first. -/
theorem find?_declareAll (registry : FieldRegistry) (declarations : List Declaration) (name : String) :
    (registry.declareAll declarations).find? name =
      (registry.find? name).or (Declaration.first? declarations name) := by
  induction declarations generalizing registry with
  | nil => simp [declareAll]
  | cons declaration declarations ih =>
    rw [declareAll, List.foldl_cons, ← declareAll, ih, find?_declare, Option.or_assoc,
      ← Declaration.first?_cons]

theorem declareAll_append (registry : FieldRegistry) (declarations later : List Declaration) :
    registry.declareAll (declarations ++ later) = (registry.declareAll declarations).declareAll later :=
  List.foldl_append

theorem registerAll_eq_ok {line : Nat} {fields : List NamedField}
    (h : registry.registerAll line fields = .ok registry') :
    registry' = registry.declareAll (Declaration.onLine line fields) := by
  induction fields generalizing registry with
  | nil =>
    cases h
    rfl
  | cons field fields ih =>
    rw [registerAll, registerUntil] at h
    cases hfield : registry.register line field with
    | error error => rw [hfield] at h; cases h
    | ok next =>
      rw [hfield] at h
      have hnext : registry.declare ⟨field, line⟩ = next := declare_of_ok hfield
      rw [Declaration.onLine, List.map_cons, declareAll, List.foldl_cons, hnext]
      exact ih h

end FieldRegistry

/-! ### The declarations of records -/

namespace Record

/-- The declarations in the pattern of a record, from the lowest bit up. -/
def declarations (record : Record) : List Declaration :=
  match Layout.resolve record.line record.bitPattern with
  | .ok layout => Declaration.onLine record.line layout.fields
  | .error _ => []

theorem declarations_of_resolve {record : Record} {layout : Layout}
    (h : Layout.resolve record.line record.bitPattern = .ok layout) :
    record.declarations = Declaration.onLine record.line layout.fields := by
  unfold declarations
  simp only [h]

end Record

namespace Table

theorem addRecords_fields {controlFlow : List String} {builder builder' : Builder} {records : List Record}
    (h : addRecords controlFlow builder records = .ok builder') :
    builder'.fields = builder.fields.declareAll (records.flatMap Record.declarations) := by
  induction records generalizing builder with
  | nil =>
    cases h
    rfl
  | cons record records ih =>
    obtain ⟨next, hadd, hrest⟩ := addRecords_cons_eq_ok_iff.mp h
    obtain ⟨-, instruction, fields, hresolve, rfl⟩ := addRecord_eq_ok_iff.mp hadd
    obtain ⟨layout, slots, hlayout, hfields, -⟩ := resolveRecord_eq_ok_iff.mp hresolve
    rw [ih hrest, List.flatMap_cons, FieldRegistry.declareAll_append, Record.declarations_of_resolve hlayout,
      ← FieldRegistry.registerAll_eq_ok hfields]

variable {records : List Record} {controlFlow : List String} {table : Table}

end Table

/-! ### Operands that name a field -/

namespace Operand

end Operand

/-! ### Extractors of fields -/

namespace OpcodeList

end OpcodeList

/-! ### The fields of a table -/

namespace Table

variable {records : List Record} {controlFlow : List String} {table : Table}

end Table

/-- Two instructions of different widths that share a field, the second one with a bias on it. -/
def sharingRecords : List Record :=
  [{ line := 2, provenance := {}, opcode := "addi", assembly := "-", attributes := [],
     bitPattern := "\x7b-11:0\x7d rs1[5] 000 rd[5] 0010011", operands := "x[rd],x[rs1]", action := "" },
   { line := 5, provenance := {}, opcode := "c.addi", assembly := "-", attributes := [],
     bitPattern := "000 \x7b-5\x7d rd[5] \x7b4:0\x7d 01", operands := "x[rd]+8", action := "" }]

end IsaForge
