import IsaForge.Code.Build
import IsaForge.Config
import IsaForge.Placeholder

/-!
The generated disassembler. An instruction is shown by its opcode and its assembly template, in which placeholders stand
for operands; an immediate is shown again in hexadecimal at the end. `Disassembly.ofInstruction` turns a template into a
format text with arguments.
-/

namespace IsaForge

open Code

/-! ### Templates -/

namespace Template

/-- Whether a character can be part of a word of a template. -/
def isWordChar (c : Char) : Bool :=
  c.isAlphanum || c == '_'

/-- Cut a text where a word begins or ends. `piece` is what was read since the last cut, from its end, and `inWord` says
whether its last character is part of a word. -/
def cutFrom (inWord : Bool) (piece : List Char) : List Char → List (Bool × String)
  | [] => if piece.isEmpty then [] else [(inWord, String.ofList piece.reverse)]
  | c :: rest =>
    if !piece.isEmpty && isWordChar c != inWord then
      (inWord, String.ofList piece.reverse) :: cutFrom (isWordChar c) [c] rest
    else cutFrom (isWordChar c) (c :: piece) rest

/-- The words of a template and what is between them, in order; each piece says whether it is a word. -/
def pieces (template : String) : List (Bool × String) :=
  cutFrom false [] template.toList

/-- Write each occurrence of a character twice. -/
def double (c : Char) (cs : List Char) : List Char :=
  cs.flatMap fun d => if d = c then [c, c] else [d]

/-- Write two successive occurrences of a character once. -/
def undouble (c : Char) : List Char → List Char
  | a :: b :: rest => if a = c && b = c then c :: undouble c rest else a :: undouble c (b :: rest)
  | cs => cs

/-- A text as it stands in a format text, where braces are doubled. -/
def escape (text : String) : String :=
  String.ofList (double '\x7d' (double '\x7b' text.toList))

/-- The text that a format text without arguments shows. -/
def unescape (format : String) : String :=
  String.ofList (undouble '\x7d' (undouble '\x7b' format.toList))

end Template

/-- An argument of a format text. -/
inductive FormatArgument where
  /-- The name of the register in a slot, from the table of the given class. -/
  | register (registerClass : RegisterClass) (slot : SlotName)
  | immediate
  /-- The low half of the immediate, in hexadecimal. -/
  | immediateHex
deriving DecidableEq, Repr

namespace FormatArgument

/-- The mark of an argument in the format text. -/
def mark : FormatArgument → String
  | .register .. => "\x7b\x7d"
  | .immediate => "\x7b\x7d"
  | .immediateHex => "\x7b:#x\x7d"

/-- The name of the table with the names of a class of registers. -/
def namesTable : RegisterClass → String
  | .generalPurpose => "GPR_NAMES"
  | .floatingPoint => "FPR_NAMES"

/-- An argument as code. -/
def trees : FormatArgument → List Tree
  | .register registerClass slot =>
    .ident "register_name" ::
      parens (fixed "&" ++ [.ident (namesTable registerClass)] ++ fixed ", insn." ++
        [.ident (PerSlot.names.get slot)])
  | .immediate => fixed "insn.immed"
  | .immediateHex => fixed "insn.immed as u32"

end FormatArgument

/-- How an instruction is shown: a format text and its arguments. -/
structure Disassembly where
  format : String
  arguments : List FormatArgument
deriving DecidableEq, Repr

namespace Disassembly

/-- Add text that stands for itself. -/
def verbatim (shown : Disassembly) (text : String) : Disassembly :=
  { shown with format := shown.format ++ Template.escape text }

/-- Add an argument. -/
def argument (shown : Disassembly) (argument : FormatArgument) : Disassembly :=
  ⟨shown.format ++ argument.mark, shown.arguments ++ [argument]⟩

/-- The argument that a placeholder of an instruction stands for. -/
def argumentOf (instruction : Instruction) : Placeholder → FormatArgument
  | .register slot registerClass? =>
    .register (registerClass?.getD (instruction.slots.get slot).registerClass) slot
  | .immediate => .immediate

/-- Add pieces of the template of an instruction, up to the first placeholder of something that it does not have. -/
def addPieces (instruction : Instruction) (shown : Disassembly) : List (Bool × String) → Except Error Disassembly
  | [] => .ok shown
  | (isWord, piece) :: rest =>
    match if isWord then Placeholder.ofName? piece else none with
    | none => addPieces instruction (shown.verbatim piece) rest
    | some placeholder =>
      if placeholder.isPresent instruction then
        addPieces instruction (shown.argument (argumentOf instruction placeholder)) rest
      else .error (instruction.absent .assembly piece)

/-- How an instruction is shown. -/
def ofInstruction (instruction : Instruction) : Except Error Disassembly := do
  let opcode : Disassembly := ⟨Template.escape instruction.opcode, []⟩
  let shown ←
    if instruction.assembly.isEmpty || instruction.assembly = "-" then pure opcode
    else addPieces instruction (opcode.verbatim " ") (Template.pieces instruction.assembly)
  return if instruction.immediate.isSome then ((shown.verbatim " (").argument .immediateHex).verbatim ")" else shown

/-- The value that is shown, as code. -/
def trees (shown : Disassembly) : List Tree :=
  if shown.arguments.isEmpty then fixed "String::from" ++ parens [.string (Template.unescape shown.format)]
  else
    fixed "format!" ++
      parens ([.string shown.format, .punct ',' .alone] ++ separated ',' (shown.arguments.map (·.trees)))

end Disassembly

namespace Disassembler

/-- The case of an instruction. -/
def arm (instruction : Instruction) : Except Error (List Tree) := do
  let shown ← Disassembly.ofInstruction instruction
  return opcodePath instruction.ident ++ fixed "=>" ++ shown.trees ++ fixed ","

/-- The opcodes that name no instruction, as one pattern. -/
def sentinelPattern : List Tree :=
  separated '|' (Sentinel.all.map fun sentinel => opcodePath sentinel.name)

/-- The table of the names of a class of registers. -/
def namesItem (registerClass : RegisterClass) (names : List String) : List Tree :=
  stringTable (FormatArgument.namesTable registerClass) [.decimal names.length] names

/-- The look-up of a register name. -/
def registerNameItem : List Tree :=
  fixed "fn register_name(names: &[& 'static str], register: u8) -> & 'static str" ++
    braces (fixed "names.get(register as usize).copied().unwrap_or(\"?\")")

/-- The routine with the cases of all instructions. -/
def routineItem (arms : List (List Tree)) : List Tree :=
  docLine " Renders `insn` in assembly syntax." ++
    fixed "pub fn disasm(insn: &Insn) -> String" ++
    braces (fixed "match insn.opcode" ++
      braces (arms.flatten ++ sentinelPattern ++ fixed "=> String::from(insn.opcode.name()),"))

/-- The items of the generated disassembler. -/
def items (table : Table) (config : Config) : Except Error (List (List Tree)) := do
  let arms ← table.instructions.mapM arm
  return [
    namesItem .generalPurpose config.gprNames,
    namesItem .floatingPoint config.fprNames,
    registerNameItem,
    routineItem arms]

end Disassembler

end IsaForge
