import IsaForge.Text.Numeral

/-!
JSON values and their two written forms: `compact` without any blank, and `pretty` with one member or element a line and
two spaces of indentation a level. The members of an object keep their order, and a repeated key stays repeated.
-/

namespace IsaForge

inductive JsonValue where
  | null
  | bool (value : Bool)
  /-- A number as written. -/
  | number (text : String)
  | string (value : String)
  | array (elements : List JsonValue)
  | object (members : List (String × JsonValue))
deriving Repr, BEq

namespace JsonValue

/-- A natural number. -/
def nat (n : Nat) : JsonValue :=
  .number (Text.decimal n)

/-- An array of strings. -/
def strings (texts : List String) : JsonValue :=
  .array (texts.map .string)

/-! ### Strings -/

/-- The characters by which a string shows a character: quotation marks, backslashes and controls are escaped. -/
def escapeChar (c : Char) : List Char :=
  if c = '"' then ['\\', '"']
  else if c = '\\' then ['\\', '\\']
  else if c = '\x08' then ['\\', 'b']
  else if c = '\x0c' then ['\\', 'f']
  else if c = '\n' then ['\\', 'n']
  else if c = '\r' then ['\\', 'r']
  else if c = '\t' then ['\\', 't']
  else if c.toNat < 0x20 then
    let digits := Nat.toDigits 16 c.toNat
    ['\\', 'u'] ++ List.replicate (4 - digits.length) '0' ++ digits
  else [c]

/-- A string as written. -/
def quoted (text : String) : String :=
  "\"" ++ String.ofList (text.toList.flatMap escapeChar) ++ "\""

/-! ### Compact form -/

mutual

/-- The compact form of a value. -/
def compact : JsonValue → String
  | .null => "null"
  | .bool true => "true"
  | .bool false => "false"
  | .number text => text
  | .string value => quoted value
  | .array elements => "[" ++ String.intercalate "," (compactElements elements) ++ "]"
  | .object members => "\x7b" ++ String.intercalate "," (compactMembers members) ++ "\x7d"

def compactElements : List JsonValue → List String
  | [] => []
  | value :: rest => value.compact :: compactElements rest

def compactMembers : List (String × JsonValue) → List String
  | [] => []
  | (key, value) :: rest => (quoted key ++ ":" ++ value.compact) :: compactMembers rest

end

/-! ### Pretty form -/

/-- A new line that begins at the given level. -/
def newLine (level : Nat) : String :=
  "\n" ++ String.ofList (List.replicate (2 * level) ' ')

/-- Parts between brackets, each on a line of its own one level below `level`; no parts take no line. -/
def layered (level : Nat) (opening closing : String) (parts : List String) : String :=
  if parts.isEmpty then opening ++ closing
  else
    opening ++ newLine (level + 1) ++ String.intercalate ("," ++ newLine (level + 1)) parts ++ newLine level ++ closing

mutual

/-- The pretty form of a value that stands at the given level. -/
def prettyAt (level : Nat) : JsonValue → String
  | .null => "null"
  | .bool true => "true"
  | .bool false => "false"
  | .number text => text
  | .string value => quoted value
  | .array elements => layered level "[" "]" (prettyElements (level + 1) elements)
  | .object members => layered level "\x7b" "\x7d" (prettyMembers (level + 1) members)

def prettyElements (level : Nat) : List JsonValue → List String
  | [] => []
  | value :: rest => value.prettyAt level :: prettyElements level rest

def prettyMembers (level : Nat) : List (String × JsonValue) → List String
  | [] => []
  | (key, value) :: rest => (quoted key ++ ": " ++ value.prettyAt level) :: prettyMembers level rest

end

/-- The pretty form of a value. -/
def pretty (value : JsonValue) : String :=
  value.prettyAt 0

end JsonValue

end IsaForge
