import IsaForge.Json.Value

/-!
Reading JSON. `JsonValue.parse` takes exactly the texts of the format: one value with blanks around it, no comments, no
trailing commas, and no escape of half a surrogate pair.
-/

namespace IsaForge.JsonValue

/-- The blanks of the format. -/
def isBlank (c : Char) : Bool :=
  c == ' ' || c == '\n' || c == '\t' || c == '\r'

def skipBlanks (cs : List Char) : List Char :=
  cs.dropWhile isBlank

/-! ### Strings -/

/-- Four hexadecimal digits. -/
def hexUnit : List Char → Option (Nat × List Char)
  | a :: b :: c :: d :: rest => (Text.readDigits 16 0 [a, b, c, d]).map (·, rest)
  | _ => none

/-- The character of an escape by number, after its two marks. A character above the basic plane is a pair of escapes. -/
def unicodeEscape (cs : List Char) : Option (Char × List Char) :=
  match hexUnit cs with
  | none => none
  | some (unit, rest) =>
    if unit < 0xD800 || 0xDFFF < unit then some (Char.ofNat unit, rest)
    else if 0xDBFF < unit then none
    else
      match rest with
      | '\\' :: 'u' :: rest =>
        match hexUnit rest with
        | none => none
        | some (low, rest) =>
          if 0xDC00 ≤ low && low ≤ 0xDFFF then
            some (Char.ofNat (0x10000 + (unit - 0xD800) * 0x400 + (low - 0xDC00)), rest)
          else none
      | _ => none

/-- The character of an escape, after its backslash. -/
def escaped : List Char → Option (Char × List Char)
  | '"' :: rest => some ('"', rest)
  | '\\' :: rest => some ('\\', rest)
  | '/' :: rest => some ('/', rest)
  | 'b' :: rest => some ('\x08', rest)
  | 'f' :: rest => some ('\x0c', rest)
  | 'n' :: rest => some ('\n', rest)
  | 'r' :: rest => some ('\r', rest)
  | 't' :: rest => some ('\t', rest)
  | 'u' :: rest => unicodeEscape rest
  | _ => none

/-- A string after its opening quotation mark, in at most `limit` characters. -/
def stringBody : Nat → List Char → Option (List Char × List Char)
  | 0, _ => none
  | _ + 1, [] => none
  | _ + 1, '"' :: rest => some ([], rest)
  | limit + 1, '\\' :: rest =>
    match escaped rest with
    | none => none
    | some (c, rest) => (stringBody limit rest).map fun (cs, rest) => (c :: cs, rest)
  | limit + 1, c :: rest =>
    if c.toNat < 0x20 then none
    else (stringBody limit rest).map fun (cs, rest) => (c :: cs, rest)

theorem stringBody_quote (limit : Nat) (rest : List Char) : stringBody (limit + 1) ('"' :: rest) = some ([], rest) := by
  rw [stringBody]

/-- A string. -/
def stringLiteral : List Char → Option (String × List Char)
  | '"' :: rest => (stringBody (rest.length + 1) rest).map fun (cs, rest) => (String.ofList cs, rest)
  | _ => none

/-! ### Numbers -/

/-- One or more digits. -/
def someDigits (cs : List Char) : Option (List Char × List Char) :=
  let digits := cs.takeWhile Char.isDigit
  if digits.isEmpty then none else some (digits, cs.drop digits.length)

/-- The digits before the point; only a zero alone begins with a zero. -/
def integerPart (cs : List Char) : Option (List Char × List Char) :=
  match cs with
  | '0' :: rest => some (['0'], rest)
  | _ => someDigits cs

/-- The digits after the point, if there is one. -/
def fractionPart (cs : List Char) : Option (List Char × List Char) :=
  match cs with
  | '.' :: rest => (someDigits rest).map fun (digits, rest) => ('.' :: digits, rest)
  | _ => some ([], cs)

/-- The exponent, if there is one. -/
def exponentPart (cs : List Char) : Option (List Char × List Char) :=
  match cs with
  | mark :: rest =>
    if mark = 'e' || mark = 'E' then
      let sign := rest.takeWhile (fun c => c == '+' || c == '-') |>.take 1
      (someDigits (rest.drop sign.length)).map fun (digits, rest) => (mark :: sign ++ digits, rest)
    else some ([], cs)
  | [] => some ([], cs)

/-- A number. -/
def numberLiteral (cs : List Char) : Option (String × List Char) := do
  let (sign, cs) := match cs with
    | '-' :: rest => (['-'], rest)
    | _ => ([], cs)
  let (whole, cs) ← integerPart cs
  let (fraction, cs) ← fractionPart cs
  let (exponent, cs) ← exponentPart cs
  return (String.ofList (sign ++ whole ++ fraction ++ exponent), cs)

/-! ### Values -/

/-- What is left after a word. -/
def stripWord : List Char → List Char → Option (List Char)
  | [], cs => some cs
  | _ :: _, [] => none
  | a :: expected, c :: cs => if a = c then stripWord expected cs else none

mutual

/-- A value, after the blanks in front of it, in at most `limit` steps. -/
def value : Nat → List Char → Option (JsonValue × List Char)
  | 0, _ => none
  | limit + 1, cs =>
    match cs with
    | '"' :: _ => (stringLiteral cs).map fun (text, rest) => (.string text, rest)
    | '[' :: rest =>
      match skipBlanks rest with
      | ']' :: rest => some (.array [], rest)
      | cs => (elements limit cs).map fun (found, rest) => (.array found, rest)
    | '\x7b' :: rest =>
      match skipBlanks rest with
      | '\x7d' :: rest => some (.object [], rest)
      | cs => (members limit cs).map fun (found, rest) => (.object found, rest)
    | 'n' :: _ => (stripWord "null".toList cs).map (.null, ·)
    | 't' :: _ => (stripWord "true".toList cs).map (.bool true, ·)
    | 'f' :: _ => (stripWord "false".toList cs).map (.bool false, ·)
    | _ => (numberLiteral cs).map fun (text, rest) => (.number text, rest)

/-- The elements of an array up to its closing bracket. -/
def elements : Nat → List Char → Option (List JsonValue × List Char)
  | 0, _ => none
  | limit + 1, cs =>
    match value limit cs with
    | none => none
    | some (first, rest) =>
      match skipBlanks rest with
      | ',' :: rest => (elements limit (skipBlanks rest)).map fun (more, rest) => (first :: more, rest)
      | ']' :: rest => some ([first], rest)
      | _ => none

/-- The members of an object up to its closing bracket. -/
def members : Nat → List Char → Option (List (String × JsonValue) × List Char)
  | 0, _ => none
  | limit + 1, cs =>
    match stringLiteral cs with
    | none => none
    | some (key, rest) =>
      match skipBlanks rest with
      | ':' :: rest =>
        match value limit (skipBlanks rest) with
        | none => none
        | some (first, rest) =>
          match skipBlanks rest with
          | ',' :: rest => (members limit (skipBlanks rest)).map fun (more, rest) => ((key, first) :: more, rest)
          | '\x7d' :: rest => some ([(key, first)], rest)
          | _ => none
      | _ => none

end

theorem value_string (limit : Nat) (cs : List Char) :
    value (limit + 1) ('"' :: cs) = (stringLiteral ('"' :: cs)).map fun (text, rest) => (.string text, rest) := by
  rw [value]

/-- Read a whole text. -/
def parse (text : String) : Option JsonValue :=
  let cs := skipBlanks text.toList
  match value (2 * cs.length + 1) cs with
  | some (found, rest) => if (skipBlanks rest).isEmpty then some found else none
  | none => none

end IsaForge.JsonValue
