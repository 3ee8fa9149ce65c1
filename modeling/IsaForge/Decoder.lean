import IsaForge.Code.Expr
import IsaForge.Table

/-!
The generated decoder. A `Decoder` is the routine as data: two blocks of rules, one for the compressed and one for the
standard instructions. `Decoder.items` writes it down with the types it uses, and `Decoder.run` is what the routine does.
-/

namespace IsaForge

open Code

/-- One rule of the routine: the words it takes and the values that it puts together from them. -/
structure DecodeRule where
  /-- How many hexadecimal digits the mask and the match have. -/
  digits : Nat
  mask : Word
  matchValue : Word
  /-- The identifier of the opcode. -/
  opcode : String
  registers : PerSlot (Expr .u8)
  immediate : Expr .i64

/-- What the routine returns. -/
structure DecodedFields where
  /-- The identifier of the opcode. -/
  opcode : String
  registers : PerSlot Register
  immediate : BitVec 64
deriving DecidableEq, Repr

namespace DecodeRule

/-! ### From instructions -/

/-- The register in a slot. -/
def register : Slot → Expr .u8
  | .none => .noRegister
  | .literal register => .decimal register.toNat
  | .field _ range offset =>
    let number : Expr .u8 := .cast (.paren (.field range.lo (range.hi - range.lo + 1) 2)) .u8
    if offset = 0 then .paren number else .paren (.add number (.decimal offset.toNat))

/-- The part of the immediate that a slice gives. To extend its sign, a slice is moved to the top of the word first. -/
def slice (slice : Slice) : Expr .i64 :=
  let extracted : Expr .i64 :=
    if slice.signExtend then
      let raised : Expr .i32 := .cast (.paren (.shiftLeft .word (32 - slice.position - slice.width))) .i32
      .cast (.paren (.shiftRight (.paren raised) (32 - slice.width))) .i64
    else .cast (.paren (.field slice.position slice.width 8)) .i64
  if slice.shift = 0 then .paren extracted else .paren (.shiftLeft (.paren extracted) slice.shift)

/-- The immediate of an instruction, zero if it has none. -/
def immediateOf : Option Immediate → Expr .i64
  | none => .decimal 0
  | some immediate =>
    match immediate.slices with
    | [] => .decimal 0
    | first :: rest => rest.foldl (fun e s => .or e (slice s)) (slice first)

/-- The rule of an instruction. -/
def ofInstruction (instruction : Instruction) : DecodeRule where
  digits := 2 * instruction.width.bytes
  mask := instruction.mask
  matchValue := instruction.matchValue
  opcode := instruction.ident
  registers := instruction.slots.map register
  immediate := immediateOf instruction.immediate

/-! ### Meaning -/

/-- The values of a rule, if each of its expressions has one. -/
def values (rule : DecodeRule) (word : Word) : Option DecodedFields := do
  let rd ← rule.registers.rd.eval word
  let rs1 ← rule.registers.rs1.eval word
  let rs2 ← rule.registers.rs2.eval word
  let rs3 ← rule.registers.rs3.eval word
  let immediate ← rule.immediate.eval word
  return ⟨rule.opcode, ⟨rd, rs1, rs2, rs3⟩, immediate⟩

/-- Whether a rule takes a word. -/
def takes (rule : DecodeRule) (word : Word) : Bool :=
  word &&& rule.mask == rule.matchValue

/-! ### Code -/

/-- The assignment of one field. -/
def fieldTrees (name : String) (value : List Tree) : List Tree :=
  [.ident name, .punct ':' .alone] ++ value ++ [.punct ',' .alone]

/-- A rule as code. -/
def trees (rule : DecodeRule) : List Tree :=
  fixed "if word &" ++ [.hexadecimal rule.mask.toNat rule.digits] ++ fixed "==" ++
    [.hexadecimal rule.matchValue.toNat rule.digits] ++
    braces (fixed "return Insn" ++
      braces (fieldTrees "opcode" (opcodePath rule.opcode) ++
        fieldTrees "rd" rule.registers.rd.trees ++ fieldTrees "rs1" rule.registers.rs1.trees ++
        fieldTrees "rs2" rule.registers.rs2.trees ++ fieldTrees "rs3" rule.registers.rs3.trees ++
        fieldTrees "immed" rule.immediate.trees) ++
      fixed ";")

end DecodeRule

/-- The decoding routine. -/
structure Decoder where
  /-- The rules that are tried if at least two bytes are there. -/
  compressed : List DecodeRule
  /-- The rules that are tried then if at least four bytes are there. -/
  standard : List DecodeRule

namespace Decoder

/-- The decoding routine of a table. -/
def ofTable (table : Table) : Decoder where
  compressed := table.compressed.map .ofInstruction
  standard := table.standard.map .ofInstruction

/-! ### Meaning -/

/-- What the routine returns for no instruction. -/
def sentinelFields (sentinel : Sentinel) : DecodedFields :=
  ⟨sentinel.name, ⟨noRegister, noRegister, noRegister, noRegister⟩, 0⟩

/-- Run the routine on a word of which `available` bytes are valid. The result is `none` if an expression that is
reached has no value. -/
def run (decoder : Decoder) (word : Word) (available : Nat) : Option DecodedFields :=
  let compressed? := if 2 ≤ available then decoder.compressed.find? (·.takes word) else none
  let standard? := if 4 ≤ available then decoder.standard.find? (·.takes word) else none
  match compressed?, standard? with
  | some rule, _ => rule.values word
  | none, some rule => rule.values word
  | none, none => some (sentinelFields (if available < 4 then .illegal else .unknown))

/-! ### Code -/

/-- The number that stands for no register. -/
def noRegisterItem : List Tree :=
  docLine " Register number of an operand slot the instruction does not use." ++
    fixed "pub const NOREG: u8 = u8::MAX;"

/-- The type of decoded instructions. -/
def insnItem : List Tree :=
  docLine " A decoded instruction: opcode, the four register slots and the reconstructed immediate." ++
    attributed "derive(Debug, Clone, Copy, PartialEq, Eq, Hash)" ++
    fixed "pub struct Insn" ++
    braces (fixed "pub opcode: Opcode, pub rd: u8, pub rs1: u8, pub rs2: u8, pub rs3: u8, pub immed: i64,")

/-- The encoded size of an instruction in bytes, as the generated code tells it from its opcode. -/
def encodedSize (isCompressed : Bool) : Nat :=
  if isCompressed then 2 else 4

/-- The methods of decoded instructions. -/
def insnMethodsItem : List Tree :=
  fixed "impl Insn" ++
    braces (
      fixed "pub const fn sentinel(opcode: Opcode) -> Self" ++
        braces (fixed "Self" ++
          braces (fixed "opcode, rd: NOREG, rs1: NOREG, rs2: NOREG, rs3: NOREG, immed: 0,")) ++
      docLine " Encoded size in bytes." ++
      fixed "pub const fn bytes(&self) -> u64" ++
        braces (fixed "if self.opcode.is_compressed()" ++ braces [.decimal (encodedSize true)] ++
          fixed "else" ++ braces [.decimal (encodedSize false)]))

/-- The instruction that stands for none. -/
def insnDefaultItem : List Tree :=
  fixed "impl Default for Insn" ++
    braces (fixed "fn default() -> Self" ++ braces (fixed "Self::sentinel(Opcode::ZERO)"))

/-- The routine itself. -/
def routineItem (decoder : Decoder) : List Tree :=
  docLine " Decodes the instruction at the start of `word`, of which `available` bytes are valid." ++
    docLine "" ++
    docLine " Rules are tried in description order and the first match wins." ++
    attributed "allow(unused_parens, clippy::identity_op)" ++
    fixed "pub fn decode(word: u32, available: usize) -> Insn" ++
    braces (
      fixed "if available >= 2" ++ braces (decoder.compressed.flatMap (·.trees)) ++
      fixed "if available >= 4" ++ braces (decoder.standard.flatMap (·.trees)) ++
      fixed "if available < 4" ++ braces (fixed "Insn::sentinel(Opcode::ILLEGAL)") ++
      fixed "else" ++ braces (fixed "Insn::sentinel(Opcode::UNKNOWN)"))

/-- The items of the generated decoder. -/
def items (decoder : Decoder) : List (List Tree) :=
  [noRegisterItem, insnItem, insnMethodsItem, insnDefaultItem, decoder.routineItem]

end Decoder

end IsaForge
