import IsaForge.Layout
import IsaForge.NameMap

/-!
The named fields of a whole description. A field may be declared many times, but always over the same bits.
-/

namespace IsaForge

/-- Where a field is, and the line that declared it first. -/
structure RegisteredField where
  range : BitRange
  line : Nat
deriving DecidableEq, Repr

/-- The fields declared so far, by name. -/
abbrev FieldRegistry := NameMap RegisteredField

namespace FieldRegistry

/-- Declare a field on line `line`. -/
def register (registry : FieldRegistry) (line : Nat) (field : NamedField) : Except Error FieldRegistry :=
  match registry.find? field.name with
  | none => .ok (NameMap.insert field.name ⟨field.range, line⟩ registry)
  | some previous =>
    if previous.range = field.range then .ok registry
    else .error (.fieldRedefinition line field.name field.range previous.line previous.range)

/-- Declare fields in order. The first that does not agree with an earlier declaration ends this; those before it stay
declared. -/
def registerUntil (registry : FieldRegistry) (line : Nat) : List NamedField → FieldRegistry × Option Error
  | [] => (registry, none)
  | field :: rest =>
    match registry.register line field with
    | .error e => (registry, some e)
    | .ok registry => registerUntil registry line rest

/-- Declare fields that all have to agree with the earlier declarations. -/
def registerAll (registry : FieldRegistry) (line : Nat) (fields : List NamedField) : Except Error FieldRegistry :=
  match registry.registerUntil line fields with
  | (registry, none) => .ok registry
  | (_, some e) => .error e

end FieldRegistry

end IsaForge
