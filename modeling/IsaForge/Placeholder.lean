import IsaForge.Table

/-!
Placeholders: the names by which an assembly template and an action speak of the operands of an instruction. A register
slot has its own name, and a second one that shows the register as a floating-point one; the immediate has two names.
-/

namespace IsaForge

/-- The register slots of an instruction. -/
inductive SlotName where
  | rd
  | rs1
  | rs2
  | rs3
deriving DecidableEq, Repr

/-- What is given for one of the slots. -/
def PerSlot.get {α : Type} (slots : PerSlot α) : SlotName → α
  | .rd => slots.rd
  | .rs1 => slots.rs1
  | .rs2 => slots.rs2
  | .rs3 => slots.rs3

inductive Placeholder where
  /-- A register, shown as one of the given class or else of the class of its slot. -/
  | register (slot : SlotName) (registerClass? : Option RegisterClass)
  | immediate
deriving DecidableEq, Repr

namespace Placeholder

/-- The placeholder of a name. -/
def ofName? : String → Option Placeholder
  | "rd" => some (.register .rd none)
  | "rs1" => some (.register .rs1 none)
  | "rs2" => some (.register .rs2 none)
  | "rs3" => some (.register .rs3 none)
  | "fd" => some (.register .rd (some .floatingPoint))
  | "fs1" => some (.register .rs1 (some .floatingPoint))
  | "fs2" => some (.register .rs2 (some .floatingPoint))
  | "fs3" => some (.register .rs3 (some .floatingPoint))
  | "immed" => some .immediate
  | "constant" => some .immediate
  | _ => none

/-- The field of a decoded instruction that holds what a placeholder stands for. -/
def field : Placeholder → String
  | .register slot _ => PerSlot.names.get slot
  | .immediate => "immed"

/-- Whether an instruction has what a placeholder stands for. -/
def isPresent (instruction : Instruction) : Placeholder → Bool
  | .register slot _ => !(instruction.slots.get slot).isNone
  | .immediate => instruction.immediate.isSome

end Placeholder

/-- The error of a placeholder for something that an instruction does not have. -/
def Instruction.absent (instruction : Instruction) (column : Column) (name : String) : Error :=
  .unknownPlaceholder instruction.line instruction.opcode column name

end IsaForge
