import IsaForge.Decoder
import IsaForge.Dispatcher
import IsaForge.OpcodeList
import IsaForge.Overlap

/-!
From a description to the generated code. A `Compilation` holds what a description means; `Compilation.generate` gives the
items of the four artifacts, and `compile` their texts.
-/

namespace IsaForge

open Code

structure Compilation where
  table : Table
  classification : Classification
deriving DecidableEq, Repr

namespace Compilation

/-- The classification of the instructions of a table. -/
def classify (table : Table) : Except Error Classification :=
  (table.instructions.foldl (fun classifier instruction => classifier.observe instruction.tokens)
    ({} : Classifier)).finalize

/-- What a description means under a configuration, which is checked first. -/
def ofSource (source : String) (config : Config) : Except Error Compilation := do
  config.validate
  let records ← Record.parseSource source
  let table ← Table.ofRecords records config.controlFlow
  let classification ← classify table
  return ⟨table, classification⟩

/-- The items of the four artifacts. -/
def generate (compilation : Compilation) (config : Config) : Except Error (PerArtifact (List (List Tree))) := do
  let disasm ← Disassembler.items compilation.table config
  let execute ← Dispatcher.items compilation.table config
  return {
    opcodes := OpcodeList.items compilation.table compilation.classification
    decode := (Decoder.ofTable compilation.table).items
    disasm
    execute }

end Compilation

/-- Every artifact begins with a line that says that it is generated. -/
def artifactHeader : String :=
  "// @generated by isa-crunch; edit the instruction description instead.\n"

/-- The text of an artifact: an empty line before each item. -/
def artifactText (items : List (List Tree)) : String :=
  artifactHeader ++ String.join (items.map fun item => "\n" ++ render item ++ "\n")

namespace PerArtifact

def map {α β : Type} (f : α → β) (artifacts : PerArtifact α) : PerArtifact β :=
  ⟨f artifacts.opcodes, f artifacts.decode, f artifacts.disasm, f artifacts.execute⟩

/-- All items of the artifacts as one piece of code. -/
def joined (artifacts : PerArtifact (List (List Tree))) : List Tree :=
  artifacts.toList.flatten.flatten

end PerArtifact

/-- The texts of the four artifacts. -/
def compile (source : String) (config : Config) : Except Error (PerArtifact String) := do
  let compilation ← Compilation.ofSource source config
  let items ← compilation.generate config
  return items.map artifactText

end IsaForge
