import IsaForge.Text.PrintableChar
import IsaForge.Text.Numeral

/-!
Code as token trees. Brackets group what is between them; punctuation is one token a character, and a joint character
belongs together with the one after it. `render` writes trees as text, with one space between two tokens unless the first
is joint.
-/

namespace IsaForge.Code

inductive Delimiter where
  | paren
  | bracket
  | brace
deriving DecidableEq, Repr

/-- Whether a punctuation character belongs together with the next one. -/
inductive Spacing where
  | alone
  | joint
deriving DecidableEq, Repr

inductive Tree where
  | group (delimiter : Delimiter) (inner : List Tree)
  | ident (name : String)
  | punct (char : Char) (spacing : Spacing)
  | literal (text : String)
deriving Repr, BEq

namespace Tree

def isJoint : Tree → Bool
  | .punct _ .joint => true
  | _ => false

end Tree

/-! ### Text -/

mutual

/-- Write a tree after `text`. -/
def Tree.renderAfter (text : String) : Tree → String
  | .group .paren inner => renderAllAfter (text ++ "(") inner ++ ")"
  | .group .bracket inner => renderAllAfter (text ++ "[") inner ++ "]"
  | .group .brace inner => renderAllAfter (text ++ "\x7b ") inner ++ (if inner.isEmpty then "\x7d" else " \x7d")
  | .ident name => text ++ name
  | .punct char _ => text.push char
  | .literal written => text ++ written

/-- Write trees after `text`. -/
def renderAllAfter (text : String) : List Tree → String
  | [] => text
  | [tree] => tree.renderAfter text
  | tree :: rest =>
    let before := tree.renderAfter text
    renderAllAfter (if tree.isJoint then before else before.push ' ') rest

end

/-- The text of token trees. -/
def render (trees : List Tree) : String :=
  renderAllAfter "" trees

/-! ### Size -/

mutual

/-- How many tokens a tree holds, a pair of brackets counting as one. -/
def Tree.size : Tree → Nat
  | .group _ inner => 1 + sizeAll inner
  | .ident _ => 1
  | .punct .. => 1
  | .literal _ => 1

def sizeAll : List Tree → Nat
  | [] => 0
  | tree :: rest => tree.size + sizeAll rest

end

/-! ### String literals -/

/-- The characters by which a string literal shows `c`, where `next?` is the character after it. A null character is
written in two digits if a digit follows that would otherwise be read with it. -/
def escapeChar (c : Char) (next? : Option Char) : List Char :=
  if c = '\x00' then
    match next? with
    | some next => if '0' ≤ next && next ≤ '7' then ['\\', 'x', '0', '0'] else ['\\', '0']
    | none => ['\\', '0']
  else if c = '\t' then ['\\', 't']
  else if c = '\n' then ['\\', 'n']
  else if c = '\r' then ['\\', 'r']
  else if c = '"' then ['\\', '"']
  else if c = '\\' then ['\\', '\\']
  else if Text.isShown c then [c]
  else ['\\', 'u', '\x7b'] ++ Nat.toDigits 16 c.toNat ++ ['\x7d']

/-- The characters by which a string literal shows a text. -/
def escapeChars : List Char → List Char
  | [] => []
  | c :: rest => escapeChar c rest.head? ++ escapeChars rest

/-- The literal of a text. -/
def Tree.string (text : String) : Tree :=
  .literal ("\"" ++ String.ofList (escapeChars text.toList) ++ "\"")

end IsaForge.Code
