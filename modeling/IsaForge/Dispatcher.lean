import IsaForge.Disassembler

/-!
The generated dispatcher. Every instruction has an arm that runs its action, in which placeholders become reads of the
decoded instruction. An arm ends by giving control to the action's own target if the instruction is a control transfer
with reference semantics, and otherwise by advancing past the instruction.
-/

namespace IsaForge

open Code

namespace Action

/-- What stands before a token: nothing of interest, one dot, or several. -/
inductive Before where
  | other
  | dot
  | dots
deriving DecidableEq, Repr

/-- What stands before the token after `tree`. -/
def Before.next (before : Before) : Tree → Before
  | .punct '.' _ =>
    match before with
    | .other => .dot
    | .dot => .dots
    | .dots => .dots
  | _ => .other

/-- The read of the field of a decoded instruction. -/
def read (placeholder : Placeholder) : Tree :=
  .group .paren [.ident "insn", .punct '.' .alone, .ident placeholder.field]

mutual

/-- Replace the placeholders in a tree. A name after a single dot is a member of something else, and stays. -/
def substituteTree (instruction : Instruction) (before : Before) : Tree → Except Error Tree
  | .group delimiter inner =>
    match substituteAll instruction .other inner with
    | .ok inner => .ok (.group delimiter inner)
    | .error e => .error e
  | .ident name =>
    if before = .dot then .ok (.ident name)
    else
      match Placeholder.ofName? name with
      | none => .ok (.ident name)
      | some placeholder =>
        if placeholder.isPresent instruction then .ok (read placeholder)
        else .error (instruction.absent .action name)
  | .punct char spacing => .ok (.punct char spacing)
  | .literal text => .ok (.literal text)

/-- Replace the placeholders in trees, up to the first one of something that the instruction does not have. -/
def substituteAll (instruction : Instruction) (before : Before) : List Tree → Except Error (List Tree)
  | [] => .ok []
  | tree :: rest =>
    match substituteTree instruction before tree with
    | .error e => .error e
    | .ok first =>
      match substituteAll instruction (before.next tree) rest with
      | .error e => .error e
      | .ok others => .ok (first :: others)

end

/-- Replace the placeholders in the action of an instruction. -/
def substitute (instruction : Instruction) (trees : List Tree) : Except Error (List Tree) :=
  substituteAll instruction .other trees

/-- Trees without a semicolon at the end. -/
def dropSemicolon (trees : List Tree) : List Tree :=
  match trees.getLast? with
  | some (.punct ';' _) => trees.dropLast
  | _ => trees

/-- The action of an instruction as the statements of a block, without its last semicolon. -/
def ofInstruction (instruction : Instruction) : Except Error (List Tree) :=
  let invalid : Error := .invalidAction instruction.line instruction.opcode
  match lex instruction.action with
  | none => .error invalid
  | some trees =>
    match substitute instruction trees with
    | .error e => .error e
    | .ok trees =>
      let body := dropSemicolon trees
      if isBlock body then .ok body else .error invalid

end Action

/-- How an arm ends. -/
inductive Ending where
  /-- Control goes where the action says. -/
  | transfer
  /-- Control goes to the instruction after one of the given count of bytes. -/
  | advance (bytes : Nat)
deriving DecidableEq, Repr

namespace Ending

/-- How the arm of an instruction ends. -/
def ofInstruction (controlFlow : List String) (instruction : Instruction) : Ending :=
  if instruction.tokens.isControlTransfer controlFlow then .transfer else .advance instruction.width.bytes

/-- An ending as code. -/
def trees : Ending → List Tree
  | .transfer => fixed "Step::Transfer(pc)"
  | .advance bytes => fixed "pc = pc.wrapping_add" ++ parens [.decimal bytes] ++ fixed "; Step::Next(pc)"

end Ending

/-- What the dispatcher does for one opcode. -/
structure DispatchArm where
  /-- The identifier of the opcode. -/
  opcode : String
  body : List Tree
  ending : Ending

namespace DispatchArm

/-- The arm of an instruction. -/
def ofInstruction (controlFlow : List String) (instruction : Instruction) : Except Error DispatchArm := do
  let body ← Action.ofInstruction instruction
  return ⟨instruction.ident, body, .ofInstruction controlFlow instruction⟩

/-- An arm as code. -/
def trees (arm : DispatchArm) : List Tree :=
  let body := if arm.body.isEmpty then [] else arm.body ++ fixed ";"
  opcodePath arm.opcode ++ fixed "=>" ++ braces (body ++ arm.ending.trees) ++ fixed ","

end DispatchArm

namespace Dispatcher

/-- The outcomes of a step. -/
def stepItem : List Tree :=
  docLine " What the dispatcher did with an instruction." ++
    attributed "derive(Debug, Clone, Copy, PartialEq, Eq)" ++
    fixed "pub enum Step" ++
    braces (
      docLine " Executed; continue at the contained address." ++ fixed "Next(u64)," ++
      docLine " A reference-model control transfer; the contained address is the new pc." ++ fixed "Transfer(u64)," ++
      docLine " Sentinel opcode; nothing was executed." ++ fixed "Illegal,")

/-- The routine with the arms of all instructions. -/
def routineItem (state : List Tree) (arms : List DispatchArm) : List Tree :=
  docLine " Runs the action of `insn`, which was fetched from `pc`." ++
    attributed "allow(unused_mut, unused_variables, unused_parens, unreachable_code, clippy::all)" ++
    fixed "pub fn execute" ++
    parens (fixed "state: &mut" ++ state ++ fixed ", insn: &Insn, mut pc: u64") ++
    fixed "-> Step" ++
    braces (fixed "match insn.opcode" ++
      braces (arms.flatMap (·.trees) ++ Disassembler.sentinelPattern ++ fixed "=> Step::Illegal,"))

/-- The items of the generated dispatcher. -/
def items (table : Table) (config : Config) : Except Error (List (List Tree)) := do
  let state ← config.stateTrees
  let arms ← table.instructions.mapM (DispatchArm.ofInstruction config.controlFlow)
  return [stepItem, routineItem state arms]

end Dispatcher

end IsaForge
