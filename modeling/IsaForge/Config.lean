import IsaForge.Code.Phrase
import IsaForge.Error
import IsaForge.Json.Parser

/-!
The configuration of a run: the type of the simulator state, the names of the registers, the behaviours that transfer
control, and the file names of the artifacts. It is read from JSON, where an object may leave fields out and an array
gives them in order from the first one on.
-/

namespace IsaForge

/-- One of something for each of the four artifacts. -/
structure PerArtifact (α : Type) where
  opcodes : α
  decode : α
  disasm : α
  execute : α
deriving DecidableEq, Repr

/-- In the order in which the artifacts are generated and written. -/
def PerArtifact.toList {α : Type} (artifacts : PerArtifact α) : List α :=
  [artifacts.opcodes, artifacts.decode, artifacts.disasm, artifacts.execute]

structure Config where
  /-- The type of the simulator state that the dispatcher works on. -/
  stateType : String := "State"
  /-- The names of the general-purpose registers. -/
  gprNames : List String :=
    ["zero", "ra", "sp", "gp", "tp", "t0", "t1", "t2", "s0", "s1", "a0", "a1", "a2", "a3", "a4", "a5", "a6", "a7",
      "s2", "s3", "s4", "s5", "s6", "s7", "s8", "s9", "s10", "s11", "t3", "t4", "t5", "t6"]
  /-- The names of the floating-point registers. -/
  fprNames : List String :=
    ["ft0", "ft1", "ft2", "ft3", "ft4", "ft5", "ft6", "ft7", "fs0", "fs1", "fa0", "fa1", "fa2", "fa3", "fa4", "fa5",
      "fa6", "fa7", "fs2", "fs3", "fs4", "fs5", "fs6", "fs7", "fs8", "fs9", "fs10", "fs11", "ft8", "ft9", "ft10",
      "ft11"]
  /-- The behaviours that mark an instruction as transferring control. -/
  controlFlow : List String := ["cj", "uj"]
  /-- The file names of the artifacts in the output directory. -/
  files : PerArtifact String := ⟨"opcodes.rs", "decode.rs", "disasm.rs", "execute.rs"⟩
deriving DecidableEq, Repr

namespace Config

/-! ### Checking -/

/-- The state type as token trees. -/
def stateTrees (config : Config) : Except Error (List Code.Tree) :=
  match Code.readType? config.stateType with
  | some trees => .ok trees
  | none => .error (.invalidConfig (.stateType config.stateType))

/-- More names than this would not leave a number for "no register". -/
def registerLimit : Nat := 254

/-- Refuse an empty table of register names and one that is too long. -/
def checkRegisters (bank : String) (names : List String) : Except Error Unit :=
  if names.isEmpty || registerLimit < names.length then
    .error (.invalidConfig (.registerNames bank names.length registerLimit))
  else .ok ()

/-- Whether a file name has no directory in it. -/
def isPlainName (name : String) : Bool :=
  !name.isEmpty && !name.toList.any fun c => c == '/' || c == '\\'

/-- Check file names in order, `seen` being those before them. -/
def checkFiles (seen : List String) : List String → Except Error Unit
  | [] => .ok ()
  | name :: rest =>
    if !isPlainName name then .error (.invalidConfig (.notPlainName name))
    else if seen.contains name then .error (.invalidConfig (.repeatedName name))
    else checkFiles (name :: seen) rest

/-- Refuse a configuration that nothing can be generated for. -/
def validate (config : Config) : Except Error Unit := do
  discard config.stateTrees
  checkRegisters "general-purpose" config.gprNames
  checkRegisters "floating-point" config.fprNames
  checkFiles [] config.files.toList

/-! ### Reading -/

/-- The members of a structure whose fields have the given names: those of an object, where no name is unknown or
repeated, or the elements of an array, which are the first fields in order. -/
def membersOf (names : List String) : JsonValue → Option (List (String × JsonValue))
  | .object members =>
    let keys := members.map (·.1)
    if keys.all names.contains && keys.eraseDups.length == keys.length then some members else none
  | .array elements => if elements.length ≤ names.length then some (names.zip elements) else none
  | _ => none

/-- The value of a field, or its default if it is left out. -/
def fieldOr {α : Type} (members : List (String × JsonValue)) (name : String) (decode : JsonValue → Option α)
    (default : α) : Option α :=
  match members.lookup name with
  | none => some default
  | some value => decode value

def textOf : JsonValue → Option String
  | .string text => some text
  | _ => none

def textsOf : JsonValue → Option (List String)
  | .array elements => elements.mapM textOf
  | _ => none

/-- The file names of the artifacts. -/
def filesOf (value : JsonValue) : Option (PerArtifact String) := do
  let members ← membersOf ["opcodes", "decode", "disasm", "execute"] value
  let default := ({} : Config).files
  return {
    opcodes := ← fieldOr members "opcodes" textOf default.opcodes
    decode := ← fieldOr members "decode" textOf default.decode
    disasm := ← fieldOr members "disasm" textOf default.disasm
    execute := ← fieldOr members "execute" textOf default.execute }

/-- The configuration that a JSON value holds. -/
def ofJson? (value : JsonValue) : Option Config := do
  let members ← membersOf ["state_type", "gpr_names", "fpr_names", "control_flow", "files"] value
  let default : Config := {}
  return {
    stateType := ← fieldOr members "state_type" textOf default.stateType
    gprNames := ← fieldOr members "gpr_names" textsOf default.gprNames
    fprNames := ← fieldOr members "fpr_names" textsOf default.fprNames
    controlFlow := ← fieldOr members "control_flow" textsOf default.controlFlow
    files := ← fieldOr members "files" filesOf default.files }

/-- Read and check a configuration. -/
def parse (text : String) : Except Error Config :=
  match (JsonValue.parse text).bind ofJson? with
  | none => .error (.invalidConfig .undecodable)
  | some config =>
    match config.validate with
    | .ok _ => .ok config
    | .error e => .error e

end Config

end IsaForge
