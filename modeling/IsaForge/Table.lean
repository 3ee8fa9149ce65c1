import IsaForge.Classification
import IsaForge.Operand

/-!
The instruction table. `Table.ofRecords` resolves the records of a description into instructions, the compressed ones
first and in the order of the description otherwise. `Table.decode` finds the first instruction that a word matches.
-/

namespace IsaForge

/-- One resolved instruction. -/
structure Instruction where
  opcode : String
  line : Nat
  provenance : Provenance
  assembly : String
  attributes : List String
  tokens : TokenSet
  matchValue : Word
  mask : Word
  width : Width
  slots : PerSlot Slot
  immediate : Option Immediate
  action : String
deriving DecidableEq, Repr

/-- An opcode as an identifier: dots become underscores. -/
def identOf (opcode : String) : String :=
  String.ofList (opcode.toList.map fun c => if c = '.' then '_' else c)

namespace Instruction

def ident (instruction : Instruction) : String :=
  identOf instruction.opcode

/-- Whether the fixed bits of an instruction agree with a word. -/
def accepts (instruction : Instruction) (word : Word) : Bool :=
  word &&& instruction.mask == instruction.matchValue

end Instruction

/-- The opcodes that name no instruction. -/
inductive Sentinel where
  | zero
  | illegal
  | unknown
deriving DecidableEq, Repr

namespace Sentinel

def all : List Sentinel := [zero, illegal, unknown]

def name : Sentinel → String
  | .zero => "ZERO"
  | .illegal => "ILLEGAL"
  | .unknown => "UNKNOWN"

end Sentinel

/-- A place in the numbering of the opcodes. -/
inductive Entry where
  | sentinel (sentinel : Sentinel)
  | instruction (instruction : Instruction)
deriving DecidableEq, Repr

namespace Entry

def ident : Entry → String
  | .sentinel s => s.name
  | .instruction i => i.ident

def mnemonic : Entry → String
  | .sentinel s => s.name
  | .instruction i => i.opcode

def instruction? : Entry → Option Instruction
  | .sentinel _ => none
  | .instruction i => some i

end Entry

/-- A decoded word. -/
structure Decoded where
  entry : Entry
  registers : PerSlot Register
  immediate : BitVec 64
deriving DecidableEq, Repr

/-- A decoded word in one line: the mnemonic, the registers that are used, and the immediate if there is one. -/
def Decoded.text (decoded : Decoded) : String :=
  let registers := (PerSlot.names.toList.zip decoded.registers.toList).filterMap fun (name, register) =>
    if register = noRegister then none else some (" " ++ name ++ "=" ++ Text.decimal register.toNat)
  let immediate := match decoded.entry.instruction?.bind (·.immediate) with
    | none => ""
    | some _ =>
      " immed=" ++ Text.signedDecimal decoded.immediate.toInt ++ " (" ++
        Text.hexadecimal (decoded.immediate.setWidth 32).toNat 1 ++ ")"
  decoded.entry.mnemonic ++ String.join registers ++ immediate

/-- All instructions of a description, the compressed ones first, and its named fields. -/
structure Table where
  instructions : List Instruction
  fields : FieldRegistry
deriving DecidableEq, Repr

namespace Table

/-! ### Building -/

/-- What is known after some of the records: their instructions in order, the fields they declare, and the line of
each opcode, by its identifier. -/
structure Builder where
  instructions : List Instruction := []
  fields : FieldRegistry := []
  seen : NameMap Nat := []

/-- Refuse an opcode whose identifier is reserved or was used before. -/
def checkOpcode (builder : Builder) (record : Record) : Except Error Unit :=
  let ident := identOf record.opcode
  match Sentinel.all.find? (·.name == ident) with
  | some sentinel => .error (.reservedOpcode record.line record.opcode sentinel.name)
  | none =>
    match builder.seen.find? ident with
    | some previousLine => .error (.duplicateOpcode record.line record.opcode previousLine)
    | none => .ok ()

/-- Resolve the columns of a record, declaring the fields of its pattern before its operands are read. -/
def resolveRecord (fields : FieldRegistry) (controlFlow : List String) (record : Record) :
    Except Error (Instruction × FieldRegistry) := do
  let layout ← Layout.resolve record.line record.bitPattern
  let fields ← fields.registerAll record.line layout.fields
  let slots ← Operand.resolve record.line record.operands layout.width fields
  let instruction : Instruction := {
    opcode := record.opcode
    line := record.line
    provenance := record.provenance
    assembly := record.assembly
    attributes := record.attributes
    tokens := TokenSet.ofRecord record.attributes record.provenance controlFlow
    matchValue := layout.matchValue
    mask := layout.mask
    width := layout.width
    slots
    immediate := layout.immediate
    action := record.action }
  return (instruction, fields)

/-- Add one record. -/
def addRecord (controlFlow : List String) (builder : Builder) (record : Record) : Except Error Builder := do
  checkOpcode builder record
  let (instruction, fields) ← resolveRecord builder.fields controlFlow record
  return {
    instructions := builder.instructions ++ [instruction]
    fields
    seen := builder.seen.insert (identOf record.opcode) record.line }

/-- Add records in order, up to the first that is refused. -/
def addRecords (controlFlow : List String) (builder : Builder) : List Record → Except Error Builder
  | [] => .ok builder
  | record :: rest =>
    match addRecord controlFlow builder record with
    | .error e => .error e
    | .ok builder => addRecords controlFlow builder rest

/-- Instructions with the compressed ones first, in the given order otherwise. -/
def arrange (instructions : List Instruction) : List Instruction :=
  instructions.filter (·.width = .compressed) ++ instructions.filter (·.width = .standard)

/-- The table of a description. -/
def ofRecords (records : List Record) (controlFlow : List String) : Except Error Table :=
  match addRecords controlFlow {} records with
  | .error e => .error e
  | .ok builder => .ok ⟨arrange builder.instructions, builder.fields⟩

/-! ### Looking up -/

def compressed (table : Table) : List Instruction :=
  table.instructions.takeWhile (·.width = .compressed)

def standard (table : Table) : List Instruction :=
  table.instructions.dropWhile (·.width = .compressed)

/-- Every opcode in the order of the numbering. -/
def entries (table : Table) : List Entry :=
  .sentinel .zero :: table.instructions.map .instruction ++ [.sentinel .illegal, .sentinel .unknown]

def numberOfOpcodes (table : Table) : Nat :=
  table.instructions.length + 3

/-- The last compressed opcode, or the zero opcode if there is none. -/
def lastCompressed (table : Table) : Entry :=
  match table.compressed.getLast? with
  | none => .sentinel .zero
  | some last => .instruction last

def find? (table : Table) (opcode : String) : Option Instruction :=
  table.instructions.find? (·.opcode == opcode)

/-! ### Decoding -/

/-- The opcode of a word that no instruction accepts: with less than a full word there might be more to come. -/
def unmatched (available : Nat) : Sentinel :=
  if available < 4 then .illegal else .unknown

/-- Decode `word`, of which `available` bytes are valid: the first instruction that fits and accepts it wins. -/
def decode (table : Table) (word : Word) (available : Nat) : Decoded :=
  match table.instructions.find? fun i => i.width.bytes ≤ available && i.accepts word with
  | some instruction => {
      entry := .instruction instruction
      registers := instruction.slots.map (·.extract word)
      immediate := match instruction.immediate with
        | none => 0
        | some immediate => immediate.reconstruct word }
  | none => {
      entry := .sentinel (unmatched available)
      registers := ⟨noRegister, noRegister, noRegister, noRegister⟩
      immediate := 0 }

/-! ### Membership -/

/-- A 64-bit word whose bit `i` is the `i`th of the given bits. -/
def packBits (bits : List Bool) : BitVec 64 :=
  bits.zipIdx.foldl (fun value (bit, i) => if bit then value ||| (1#64 <<< i) else value) 0

/-- One bit for each opcode, in 64-bit words: whether `token` is among its behaviours. -/
def membership (table : Table) (token : String) : List (BitVec 64) :=
  let bits := table.entries.map fun entry =>
    match entry.instruction? with
    | none => false
    | some instruction => instruction.tokens.behavior.contains token
  (List.range ((table.numberOfOpcodes + 63) / 64)).map fun k => packBits ((bits.drop (64 * k)).take 64)

end Table

end IsaForge
