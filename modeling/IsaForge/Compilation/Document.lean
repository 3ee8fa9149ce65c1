import IsaForge.Compilation
import IsaForge.Json.Value

/-!
The JSON document of a compilation: every instruction of its table with all its columns, the named fields, and the bits
of the attributes.
-/

namespace IsaForge

/-- The kinds of a record, as flags with bars between them. -/
def Provenance.flagsText (provenance : Provenance) : String :=
  String.intercalate " | "
    ((if provenance.custom then ["CUSTOM"] else []) ++ (if provenance.reference then ["REFERENCE"] else []))

def Width.label : Width → String
  | .compressed => "Compressed"
  | .standard => "Standard"

def RegisterClass.label : RegisterClass → String
  | .generalPurpose => "GeneralPurpose"
  | .floatingPoint => "FloatingPoint"

namespace Document

def slot : Slot → JsonValue
  | .none => .string "None"
  | .literal register => .object [("Literal", .nat register.toNat)]
  | .field registerClass range offset =>
    .object [("Field", .object [
      ("class", .string registerClass.label),
      ("hi", .nat range.hi),
      ("lo", .nat range.lo),
      ("offset", .nat offset.toNat)])]

def slice (slice : Slice) : JsonValue :=
  .object [
    ("position", .nat slice.position),
    ("width", .nat slice.width),
    ("shift", .nat slice.shift),
    ("sign_extend", .bool slice.signExtend)]

def immediate : Option Immediate → JsonValue
  | none => .null
  | some immediate =>
    .object [("terms", .array (immediate.slices.map slice)), ("signed", .bool immediate.signed)]

def instruction (instruction : Instruction) : JsonValue :=
  .object [
    ("opcode", .string instruction.opcode),
    ("line", .nat instruction.line),
    ("provenance", .string instruction.provenance.flagsText),
    ("assembly", .string instruction.assembly),
    ("attributes", .strings instruction.attributes),
    ("tokens", .object [
      ("isa", .strings instruction.tokens.isa),
      ("behavior", .strings instruction.tokens.behavior)]),
    ("match_value", .nat instruction.matchValue.toNat),
    ("mask", .nat instruction.mask.toNat),
    ("width", .string instruction.width.label),
    ("fields", .array (instruction.slots.toList.map slot)),
    ("immediate", immediate instruction.immediate),
    ("action", .string instruction.action)]

def declaredField (declared : RegisteredField) : JsonValue :=
  .object [
    ("hi", .nat declared.range.hi),
    ("lo", .nat declared.range.lo),
    ("line", .nat declared.line)]

def table (table : Table) : JsonValue :=
  .object [
    ("instructions", .array (table.instructions.map instruction)),
    ("compressed", .nat table.compressed.length),
    ("fields", .object [
      ("fields", .object (table.fields.map fun (name, declared) => (name, declaredField declared)))])]

def axis (axis : AxisMap) : JsonValue :=
  .object [
    ("positions", .object (axis.positions.map fun (token, position) => (token, .nat position))),
    ("storage", .string ("U" ++ Text.decimal axis.storage.bits))]

end Document

/-- The document of a compilation. -/
def Compilation.document (compilation : Compilation) : JsonValue :=
  .object [
    ("table", Document.table compilation.table),
    ("classification", .object [
      ("isa", Document.axis compilation.classification.isa),
      ("behavior", Document.axis compilation.classification.behavior)])]

end IsaForge
