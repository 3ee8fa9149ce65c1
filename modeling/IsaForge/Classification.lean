import IsaForge.Error
import IsaForge.NameMap
import IsaForge.Record

/-!
Attributes on two axes. An attribute of upper-case letters only names a part of the instruction set, any other one a
behaviour. A `Classifier` collects the attributes of a whole description, and the `Classification` made from it gives each
attribute of an axis one bit, in the order of the names.
-/

namespace IsaForge

/-- The attributes of one instruction, by axis. -/
structure TokenSet where
  isa : NameSet := []
  behavior : NameSet := []
deriving DecidableEq, Repr

namespace TokenSet

/-- The behaviour of every custom instruction. -/
def customToken : String := "custom"

/-- The behaviour of every instruction that follows a reference model. -/
def referenceToken : String := "reference"

/-- A pipeline boundary is required before the instruction. -/
def stopBeforeToken : String := "<"

/-- A pipeline boundary is required after the instruction. -/
def stopAfterToken : String := ">"

/-- Attributes of upper-case letters only belong to the instruction-set axis. -/
def isIsaToken (token : String) : Bool :=
  !token.isEmpty && token.toList.all Char.isUpper

/-- Whether one of the control-flow tokens is among the behaviours. -/
def hasControlFlow (controlFlow : List String) (behavior : NameSet) : Bool :=
  controlFlow.any behavior.contains

/-- The attributes of an instruction: those of its record and those that its provenance brings. An instruction of a
reference model that transfers control requires a pipeline boundary after it. -/
def ofRecord (tokens : List String) (provenance : Provenance) (controlFlow : List String) : TokenSet :=
  let isa := NameSet.ofList (tokens.filter isIsaToken)
  let declared := NameSet.ofList (tokens.filter fun token => !isIsaToken token)
  let custom := if provenance.custom then declared.insert customToken else declared
  let behavior :=
    if provenance.reference then
      let reference := custom.insert referenceToken
      if hasControlFlow controlFlow reference then reference.insert stopAfterToken else reference
    else custom
  ⟨isa, behavior⟩

/-- Whether an instruction follows a reference model and transfers control. -/
def isControlTransfer (tokens : TokenSet) (controlFlow : List String) : Bool :=
  tokens.behavior.contains referenceToken && hasControlFlow controlFlow tokens.behavior

end TokenSet

/-- The unsigned integers that hold one bit for each attribute of an axis. -/
inductive StorageWidth where
  | bits8
  | bits16
  | bits32
  | bits64
deriving DecidableEq, Repr

namespace StorageWidth

def bits : StorageWidth → Nat
  | .bits8 => 8
  | .bits16 => 16
  | .bits32 => 32
  | .bits64 => 64

/-- The narrowest integer with a bit for each of `count` attributes. -/
def forCount? (count : Nat) : Option StorageWidth :=
  [bits8, bits16, bits32, bits64].find? fun width => count ≤ width.bits

end StorageWidth

/-- The attributes of one axis. The bit of an attribute is its place in the order of the names. -/
structure AxisMap where
  tokens : NameSet
  storage : StorageWidth
deriving DecidableEq, Repr

namespace AxisMap

/-- Give each attribute of an axis its bit. -/
def assign (axis : Axis) (tokens : NameSet) : Except Error AxisMap :=
  match StorageWidth.forCount? tokens.length with
  | some storage => .ok ⟨tokens, storage⟩
  | none => .error (.tooManyAttributes axis tokens.length)

/-- The bit of an attribute. -/
def position? (axis : AxisMap) (token : String) : Option Nat :=
  axis.tokens.findIdx? (· == token)

/-- The attributes with their bits. -/
def positions (axis : AxisMap) : List (String × Nat) :=
  axis.tokens.zipIdx

/-- The bits of the given attributes; one that the axis does not know has none. -/
def bits (axis : AxisMap) (tokens : List String) : BitVec 64 :=
  (tokens.filterMap axis.position?).foldl (fun value position => value ||| (1#64 <<< position)) 0

end AxisMap

/-- The bits of both axes. -/
structure Classification where
  isa : AxisMap
  behavior : AxisMap
deriving DecidableEq, Repr

namespace Classification

def isaBits (classification : Classification) (tokens : TokenSet) : BitVec 64 :=
  classification.isa.bits tokens.isa

def behaviorBits (classification : Classification) (tokens : TokenSet) : BitVec 64 :=
  classification.behavior.bits tokens.behavior

end Classification

/-- The attributes seen so far. -/
structure Classifier where
  isa : NameSet := []
  behavior : NameSet := []
deriving DecidableEq, Repr

namespace Classifier

/-- Add the attributes of an instruction. -/
def observe (classifier : Classifier) (tokens : TokenSet) : Classifier :=
  ⟨classifier.isa.insertAll tokens.isa, classifier.behavior.insertAll tokens.behavior⟩

/-- Give every attribute seen its bit. -/
def finalize (classifier : Classifier) : Except Error Classification := do
  return ⟨← AxisMap.assign .isa classifier.isa, ← AxisMap.assign .behavior classifier.behavior⟩

end Classifier

end IsaForge
