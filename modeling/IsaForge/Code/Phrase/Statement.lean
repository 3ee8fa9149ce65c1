import IsaForge.Code.Phrase.Item

/-!
Statements: declarations, bindings and expressions. A statement needs a semicolon before the next one unless it ends with
a block.
-/

namespace IsaForge.Code

open Reading

/-- A binding of names. -/
def binding (read : Phrases) : Reading Unit := do
  word "let"
  discard (read .pattern)
  if ← op? ":" then discard (read (.type true))
  if ← op? "=" then
    discard (read (.expression true))
    let braced ← endsWithBraces
    if !braced && (← peek (Trees.word "else")) then
      copy
      block read
  op ";"

/-- Whether trees begin with an item. -/
def Trees.item (trees : List Tree) : Bool :=
  let second := Trees.next trees
  let third := Trees.next second
  Trees.anyOf ["pub", "extern", "use", "fn", "mod", "type", "struct", "enum", "trait", "impl", "macro"] trees ||
    (Trees.word "crate" trees && !Trees.op "::" second) ||
    (Trees.word "static" trees && (Trees.word "mut" second || Trees.ident second)) ||
    (Trees.word "const" trees &&
      !(Trees.group .brace second || Trees.word "static" second ||
        (Trees.word "async" second && !Trees.anyOf ["unsafe", "extern", "fn"] third) ||
        Trees.word "move" second || Trees.op "|" second)) ||
    (Trees.word "unsafe" trees && !Trees.group .brace second) ||
    (Trees.word "async" trees && Trees.anyOf ["unsafe", "extern", "fn"] second) ||
    (Trees.word "union" trees && Trees.ident second) ||
    (Trees.word "auto" trees && Trees.word "trait" second) ||
    (Trees.word "default" trees && Trees.anyOf ["unsafe", "impl"] second)

/-- What is left after a path without arguments, if there is one. -/
def afterPlainPath : Reading (Option (List Tree)) := fun cursor =>
  match plainPath cursor with
  | some (_, after) => some (some after.rest, cursor)
  | none => some (none, cursor)

/-- How a path that calls a macro begins a statement. -/
inductive MacroStatement where
  /-- It does not call one, or as an expression. -/
  | expression
  | item
  /-- It calls one with braces. -/
  | braced

/-- How the macro call at the beginning of a statement is to be read. -/
def macroStatement : Reading MacroStatement := do
  let some trees ← afterPlainPath | return .expression
  let second := Trees.next trees
  let third := Trees.next second
  if !Trees.op "!" trees then return .expression
  if Trees.ident second || Trees.word "try" second then return .item
  if Trees.group .brace second &&
      !((Trees.op "." third && !Trees.op ".." third) || Trees.op "?" third) then
    return .braced
  return .expression

/-- A statement; tells whether the next one needs a semicolon before it. -/
def statement (read : Phrases) : Reading Bool := do
  outerAttributes read
  let called ← macroStatement
  if called matches .braced then
    plainPath
    op "!"
    discard macroArguments
    discard (op? ";")
    return false
  if ← peek (Trees.word "let") then
    binding read
    return false
  if (called matches .item) || (← peek Trees.item) then
    discard (read .item)
    return false
  let shape ← read .statementExpression
  if ← op? ";" then return false
  return shape != .blockLike && shape != .macroCall true

/-- Statements up to the end of their block. -/
def statementsPhrase (read : Phrases) : Reading Shape := do
  loop (fun _ => do
    whileTrue (op? ";") (pure ())
    if ← atEnd then return none
    let unfinished ← statement read
    if ← atEnd then return none
    guard !unfinished
    return some ()) ()
  return .plain

end IsaForge.Code
