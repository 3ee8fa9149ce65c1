import IsaForge.Code.Lexer
import IsaForge.Code.Phrase.Reading

/-!
Putting code together: fixed pieces, groups, lists with separators, identifiers and numbers.
-/

namespace IsaForge.Code

/-- A fixed piece of code. -/
def fixed (text : String) : List Tree :=
  (lex text).getD []

/-! ### Groups and lists -/

def parens (trees : List Tree) : List Tree :=
  [.group .paren trees]

def brackets (trees : List Tree) : List Tree :=
  [.group .bracket trees]

def braces (trees : List Tree) : List Tree :=
  [.group .brace trees]

/-- Pieces with a character between any two of them. -/
def separated (separator : Char) (pieces : List (List Tree)) : List Tree :=
  List.flatten (pieces.intersperse [.punct separator .alone])

/-! ### Identifiers -/

/-- A name as an identifier. A keyword is marked as raw, and the few names that cannot be marked get an underscore. -/
def identText (name : String) : String :=
  if Lexer.neverRaw.contains name then name ++ "_"
  else if Trees.keywords.contains name then "r#" ++ name
  else name

/-- The identifier of a name. -/
def Tree.name (name : String) : Tree :=
  .ident (identText name)

/-- A name inside another one. -/
def qualified (outer inner : String) : List Tree :=
  [.name outer, .punct ':' .joint, .punct ':' .alone, .name inner]

/-- The path of the opcode with the given identifier. -/
def opcodePath (ident : String) : List Tree :=
  qualified "Opcode" ident

/-! ### Literals and documentation -/

def Tree.decimal (n : Nat) : Tree :=
  .literal (Text.decimal n)

/-- A hexadecimal number with at least the given count of digits. -/
def Tree.hexadecimal (n digits : Nat) : Tree :=
  .literal (Text.hexadecimal n digits)

/-- The documentation of what follows, computed from a description. -/
def doc (text : String) : List Tree :=
  .punct '#' .alone :: brackets [.ident "doc", .punct '=' .alone, .string text]

/-- One line of documentation that is the same in all generated code. -/
def docLine (text : String) : List Tree :=
  .punct '#' .alone :: brackets [.ident "doc", .punct '=' .alone, .literal ("r\"" ++ text ++ "\"")]

/-- An attribute of what follows. -/
def attributed (text : String) : List Tree :=
  .punct '#' .alone :: brackets (fixed text)

/-- A constant array of strings. -/
def stringTable (name : String) (length : List Tree) (texts : List String) : List Tree :=
  fixed "pub const" ++ [.name name, .punct ':' .alone] ++ brackets (fixed "&str;" ++ length) ++ fixed "=" ++
    brackets (separated ',' (texts.map fun text => [.string text])) ++ fixed ";"

end IsaForge.Code
