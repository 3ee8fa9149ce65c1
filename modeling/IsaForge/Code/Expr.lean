import IsaForge.Code.Build
import IsaForge.Operand

/-!
Arithmetic in generated code. An `Expr` is an expression over the instruction word, indexed by the type of its value.
`Expr.trees` writes it down and `Expr.eval` is what it means, where a value that does not fit its type, a sum that
overflows and a shift by the width of the type or more mean nothing.
-/

namespace IsaForge.Code

/-- The types of the numbers in generated code. -/
inductive NumberType where
  | u8
  | u32
  | i32
  | i64
deriving DecidableEq, Repr

namespace NumberType

def bits : NumberType → Nat
  | .u8 => 8
  | .u32 => 32
  | .i32 => 32
  | .i64 => 64

def isSigned : NumberType → Bool
  | .u8 => false
  | .u32 => false
  | .i32 => true
  | .i64 => true

def name : NumberType → String
  | .u8 => "u8"
  | .u32 => "u32"
  | .i32 => "i32"
  | .i64 => "i64"

/-- Whether a type has a literal's value. -/
def holds (type : NumberType) (n : Nat) : Bool :=
  n < 1 <<< (if type.isSigned then type.bits - 1 else type.bits)

end NumberType

inductive Expr : NumberType → Type where
  /-- The instruction word. -/
  | word : Expr .u32
  /-- The number that stands for no register. -/
  | noRegister : Expr .u8
  | decimal {t : NumberType} (n : Nat) : Expr t
  | hexadecimal {t : NumberType} (n digits : Nat) : Expr t
  | paren {t : NumberType} (e : Expr t) : Expr t
  | shiftLeft {t : NumberType} (e : Expr t) (amount : Nat) : Expr t
  | shiftRight {t : NumberType} (e : Expr t) (amount : Nat) : Expr t
  | and {t : NumberType} (a b : Expr t) : Expr t
  | or {t : NumberType} (a b : Expr t) : Expr t
  | add {t : NumberType} (a b : Expr t) : Expr t
  | cast {t : NumberType} (e : Expr t) (target : NumberType) : Expr target
deriving Repr

namespace Expr

/-- An expression as code. -/
def trees : {t : NumberType} → Expr t → List Tree
  | _, .word => [.ident "word"]
  | _, .noRegister => [.ident "NOREG"]
  | _, .decimal n => [.decimal n]
  | _, .hexadecimal n digits => [.hexadecimal n digits]
  | _, .paren e => parens e.trees
  | _, .shiftLeft e amount => e.trees ++ [.punct '<' .joint, .punct '<' .alone, .decimal amount]
  | _, .shiftRight e amount => e.trees ++ [.punct '>' .joint, .punct '>' .alone, .decimal amount]
  | _, .and a b => a.trees ++ .punct '&' .alone :: b.trees
  | _, .or a b => a.trees ++ .punct '|' .alone :: b.trees
  | _, .add a b => a.trees ++ .punct '+' .alone :: b.trees
  | _, .cast e target => e.trees ++ [.ident "as", .ident target.name]

/-- A literal's value in a type that holds it. -/
def literalValue (type : NumberType) (n : Nat) : Option (BitVec type.bits) :=
  if type.holds n then some (BitVec.ofNat type.bits n) else none

/-- The value of an expression in the given word. -/
def eval (instruction : Word) : {t : NumberType} → Expr t → Option (BitVec t.bits)
  | _, .word => some instruction
  | _, .noRegister => some IsaForge.noRegister
  | t, .decimal n => literalValue t n
  | t, .hexadecimal n _ => literalValue t n
  | _, .paren e => e.eval instruction
  | t, .shiftLeft e amount => do
    let value ← e.eval instruction
    if amount < t.bits then some (value <<< amount) else none
  | t, .shiftRight e amount => do
    let value ← e.eval instruction
    if amount < t.bits then
      some (if t.isSigned then value.sshiftRight amount else value >>> amount)
    else none
  | _, .and a b => do
    let left ← a.eval instruction
    let right ← b.eval instruction
    some (left &&& right)
  | _, .or a b => do
    let left ← a.eval instruction
    let right ← b.eval instruction
    some (left ||| right)
  | t, .add a b => do
    let left ← a.eval instruction
    let right ← b.eval instruction
    let overflows := if t.isSigned then left.saddOverflow right else left.uaddOverflow right
    if overflows then none else some (left + right)
  | _, .cast (t := source) e target => do
    let value ← e.eval instruction
    some (if source.isSigned then value.signExtend target.bits else value.setWidth target.bits)

/-- The largest number of `width` bits, which masks them. -/
def lowMask (width : Nat) : Nat :=
  1 <<< width - 1

/-- The `width` bits of the word above the lowest `position` ones, with the mask in at least the given count of
digits. -/
def field (position width digits : Nat) : Expr .u32 :=
  .and (.paren (.shiftRight .word position)) (.hexadecimal (lowMask width) digits)

end Expr

end IsaForge.Code
