/-!
Numerals: reading a run of digits in a given base, and writing a number in decimal or in hexadecimal padded to a number
of digits.
-/

namespace IsaForge.Text

/-- The value of a character as a digit of base `base`; letters of either case stand for ten and above. -/
def digitValue? (base : Nat) (c : Char) : Option Nat :=
  let value? : Option Nat :=
    if '0' ≤ c && c ≤ '9' then some (c.toNat - '0'.toNat)
    else if 'a' ≤ c && c ≤ 'z' then some (c.toNat - 'a'.toNat + 10)
    else if 'A' ≤ c && c ≤ 'Z' then some (c.toNat - 'A'.toNat + 10)
    else none
  value?.filter (· < base)

/-- Read digits from the most significant one, `value` being what was read so far. -/
def readDigits (base value : Nat) : List Char → Option Nat
  | [] => some value
  | c :: rest =>
    match digitValue? base c with
    | some digit => readDigits base (value * base + digit) rest
    | none => none

/-- The value of a run of decimal digits. -/
def decimalValue (digits : List Char) : Nat :=
  (readDigits 10 0 digits).getD 0

/-- The first number that does not fit an unsigned 32-bit word. -/
def wordLimit : Nat := 0x100000000

/-- Read a run of decimal digits that has to fit an unsigned 32-bit word. -/
def readIndex? (digits : String) : Option Nat :=
  (readDigits 10 0 digits.toList).filter (· < wordLimit)

/-- A number in decimal. -/
def decimal (n : Nat) : String :=
  String.ofList (Nat.toDigits 10 n)

/-- An integer in decimal, with a sign if it is negative. -/
def signedDecimal (n : Int) : String :=
  match n with
  | .ofNat m => decimal m
  | .negSucc m => "-" ++ decimal (m + 1)

/-- A number in lower-case hexadecimal with its marker, padded by zeros to at least `digits` digits. -/
def hexadecimal (n digits : Nat) : String :=
  let written := Nat.toDigits 16 n
  "0x" ++ String.ofList (List.replicate (digits - written.length) '0' ++ written)

end IsaForge.Text
