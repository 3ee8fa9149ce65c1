import IsaForge.Code.Phrase.Type

/-!
Patterns: what a value is matched against. Alternatives are separated by bars where a phrase allows them.
-/

namespace IsaForge.Code

open Reading

/-- Whether trees begin with a bar between alternatives. -/
def Trees.alternative (trees : List Tree) : Bool :=
  Trees.op "|" trees && !Trees.op "||" trees && !Trees.op "|=" trees

/-- Patterns with bars in between and maybe one in front. -/
def alternatives (read : Phrases) : Reading Shape := do
  let led ← op? "|"
  let shape ← read .pattern
  let single ← loop (fun _ => do
    if !(← peek Trees.alternative) then return none
    op "|"
    discard (read .pattern)
    return some false) true
  return if single && !led then shape else .plain

/-- The middle of a range; tells whether its upper end is included. -/
def rangeLimits (obsolete : Bool) : Reading Bool := do
  if ← op? "..=" then return true
  if ← peek (Trees.op "...") then
    guard obsolete
    op "..."
    return true
  op ".."
  return false

/-- A constant in braces. -/
def constantBlock (read : Phrases) : Reading Unit := do
  word "const"
  bracedStatements read

/-- An end of a range pattern, if it has one. -/
def rangeBound (read : Phrases) : Reading Bool := do
  let trees := (← get).rest
  if trees.isEmpty || Trees.op "|" trees || Trees.op "=" trees ||
      (Trees.op ":" trees && !Trees.op "::" trees) || Trees.op "," trees || Trees.op ";" trees ||
      Trees.word "if" trees then
    return false
  if Trees.literal trees then literal
  else if Trees.pathName trees || Trees.op "::" trees || Trees.op "<" trees then
    discard (qualifiedPath read true)
  else constantBlock read
  return true

/-- The rest of a range pattern after its lower end. -/
def rangePatternRest (read : Phrases) : Reading Shape := do
  let included ← rangeLimits true
  let bounded ← rangeBound read
  guard (bounded || !included)
  return if bounded then .plain else .openRange

/-- The name or number of a member. -/
def memberName : Reading Bool := do
  if ← peek Trees.ident then
    copy
    return true
  match ← take with
  | .literal text =>
    let some value := indexValue? text | failure
    emit (.literal (Text.decimal value))
    return false
  | _ => failure
where
  /-- The value of an unmarked whole number below the word limit. -/
  indexValue? (text : String) : Option Nat :=
    let written := text.toList.filter (· != '_')
    let value? := match written with
      | '0' :: 'x' :: digits => readAll 16 digits
      | '0' :: 'o' :: digits => readAll 8 digits
      | '0' :: 'b' :: digits => readAll 2 digits
      | digits => readAll 10 digits
    value?.filter (· < Text.wordLimit)
  readAll (base : Nat) (digits : List Char) : Option Nat :=
    if digits.isEmpty then none else Text.readDigits base 0 digits

/-- A field of a structure pattern. -/
def fieldPattern (read : Phrases) : Reading Unit := do
  let boxed ← word? "box"
  let byReference ← word? "ref"
  let isMutable ← word? "mut"
  if boxed || byReference || isMutable then
    ident
  else
    let named ← memberName
    if !named || (← peek (Trees.op ":")) then
      op ":"
      discard (alternatives read)

/-- The fields of a structure pattern. -/
def structurePattern (read : Phrases) : Reading Unit :=
  inside .brace (loop (fun _ => do
    if ← atEnd then return none
    outerAttributes read
    if ← op? ".." then return none
    fieldPattern read
    if ← atEnd then return none
    op ","
    return some ()) ())

/-- A pattern that begins with a path. -/
def pathPattern (read : Phrases) : Reading Shape := do
  let found? ← qualifiedPath read true
  if let some found := found? then
    if ← callsMacro found then
      op "!"
      discard macroArguments
      return .plain
  if ← peek (Trees.group .brace) then
    structurePattern read
    return .plain
  if ← peek (Trees.group .paren) then
    inside .paren (separatedToEnd "," (discard (alternatives read)))
    return .plain
  if ← peek (Trees.op "..") then rangePatternRest read else return .plain

/-- A name that the matched value is bound to. -/
def bindingPattern (read : Phrases) : Reading Unit := do
  discard (word? "ref")
  discard (word? "mut")
  if ← peek (Trees.word "self") then copy else ident
  if ← op? "@" then discard (read .pattern)

/-- The elements of a slice pattern. A range without one of its ends needs parentheses there. -/
def slicePattern (read : Phrases) : Reading Unit :=
  inside .bracket (separatedToEnd "," do
    let shape ← alternatives read
    guard (shape != .openRange))

/-- A pattern without alternatives. -/
def patternPhrase (read : Phrases) : Reading Shape := do
  let trees := (← get).rest
  let after := Trees.next trees
  if (Trees.ident trees && (Trees.op "::" after || Trees.op "!" after || Trees.group .brace after ||
        Trees.group .paren after || Trees.op ".." after)) ||
      (Trees.word "self" trees && Trees.op "::" after) || Trees.op "::" trees || Trees.op "<" trees ||
      Trees.anyOf ["Self", "super", "crate"] trees then
    pathPattern read
  else if Trees.word "_" trees then
    copy
    return .plain
  else if Trees.word "box" trees then
    copy
    discard (read .pattern)
    return .plain
  else if Trees.op "-" trees || Trees.literal trees || Trees.word "const" trees then
    guard (← rangeBound read)
    if ← peek (Trees.op "..") then rangePatternRest read else return .plain
  else if Trees.anyOf ["ref", "mut", "self"] trees || Trees.ident trees then
    bindingPattern read
    return .plain
  else if Trees.op "&" trees then
    op "&"
    discard (word? "mut")
    discard (read .pattern)
    return .plain
  else if Trees.group .paren trees then
    inside .paren (separatedToEnd "," (discard (alternatives read)))
    return .plain
  else if Trees.group .bracket trees then
    slicePattern read
    return .plain
  else if Trees.op ".." trees && !Trees.op "..." trees then
    let included ← rangeLimits false
    let bounded ← rangeBound read
    guard (bounded || !included)
    return if bounded then .openRange else .patternRest
  else failure

end IsaForge.Code
