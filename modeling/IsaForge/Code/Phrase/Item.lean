import IsaForge.Code.Phrase.Expression

/-!
Items: functions, types, traits and the other declarations that may stand among the statements of a block.
-/

namespace IsaForge.Code

open Reading

/-! ### Visibility and parameters of types -/

/-- Whether the content of parentheses after the mark of visibility restricts it. -/
def restrictsVisibility : List Tree → Bool
  | [.ident name] => ["crate", "self", "super"].contains name
  | .ident "in" :: _ => true
  | _ => false

/-- The mark of visibility, if there is one. -/
def visibility : Reading Bool := do
  if !(← word? "pub") then return false
  match (← get).rest with
  | .group .paren inner :: _ =>
    if restrictsVisibility inner then
      inside .paren do
        if ← word? "in" then plainPath else copy
  | _ => return true
  return true

/-- Bounds with pluses in between, up to one of the given marks. -/
def boundsUntil (read : Phrases) (stop : List Tree → Bool) : Reading Unit :=
  loop (fun _ => do
    if ← peek stop then return none
    discard (read (.bound false true))
    if ← op? "+" then return some () else return none) ()

/-- Lifetimes with pluses in between, up to one of the given marks. -/
def lifetimesUntil (stop : List Tree → Bool) : Reading Unit :=
  loop (fun _ => do
    if ← peek stop then return none
    lifetime
    if ← op? "+" then return some () else return none) ()

/-- A parameter of an item: a lifetime, a constant or a type. -/
def genericParameter (read : Phrases) : Reading Unit := do
  outerAttributes read
  let trees := (← get).rest
  let closes (trees : List Tree) : Bool := trees.isEmpty || Trees.op "," trees || Trees.op ">" trees
  if Trees.lifetime trees then
    lifetime
    if ← op? ":" then lifetimesUntil closes
  else if Trees.word "const" trees then
    copy
    ident
    op ":"
    discard (read (.type true))
    if ← op? "=" then constantArgument read
  else if Trees.word "_" trees then copy
  else
    ident
    if ← op? ":" then boundsUntil read fun trees => closes trees || Trees.op "=" trees
    if ← op? "=" then discard (read (.type true))

/-- The parameters of an item, if there are some. -/
def generics (read : Phrases) : Reading Unit := do
  if !(← op? "<") then return
  loop (fun _ => do
    if ← peek (Trees.op ">") then return none
    genericParameter read
    if ← peek (Trees.op ">") then return none
    op ","
    return some ()) ()
  op ">"

/-- Whether the conditions on parameters end. -/
def Trees.endsConditions (trees : List Tree) : Bool :=
  trees.isEmpty || Trees.group .brace trees || Trees.op "," trees || Trees.op ";" trees ||
    (Trees.op ":" trees && !Trees.op "::" trees) || Trees.op "=" trees

/-- A condition on the parameters of an item. -/
def condition (read : Phrases) : Reading Unit := do
  if ← peek fun trees => Trees.lifetime trees && Trees.op ":" (Trees.next trees) then
    lifetime
    op ":"
    lifetimesUntil fun trees =>
      trees.isEmpty || Trees.group .brace trees || Trees.op "," trees || Trees.op ";" trees ||
        Trees.op ":" trees || Trees.op "=" trees || Trees.op ">" trees
  else
    discard (boundLifetimes read)
    discard (read (.type true))
    op ":"
    boundsUntil read Trees.endsConditions

/-- The conditions on the parameters of an item, if there are some. -/
def whereClause (read : Phrases) : Reading Unit := do
  if !(← word? "where") then return
  loop (fun _ => do
    if ← peek Trees.endsConditions then return none
    condition read
    if ← op? "," then return some () else return none) ()

/-! ### Functions -/

/-- The receiver of a method. -/
def receiver (read : Phrases) : Reading Unit := do
  let borrowed ← op? "&"
  if borrowed then
    if ← peek Trees.lifetime then lifetime
  discard (word? "mut")
  word "self"
  if !borrowed then
    if ← op? ":" then discard (read (.type true))

/-- A parameter of a function; a receiver and the mark of any number of arguments are told apart. -/
def parameter (read : Phrases) : Reading Shape := do
  if (← attempt (receiver read)).isSome then return .receiver
  if ← peek fun trees => Trees.ident trees && Trees.op "<" (Trees.next trees) then
    discard (read (.type true))
    return .plain
  discard (read .pattern)
  op ":"
  if ← op? "..." then return .patternRest
  discard (read (.type true))
  return .plain

/-- The parameters of a function. Only the first may be a receiver, and nothing but a comma follows any number of
arguments. -/
def parameters (read : Phrases) : Reading Unit :=
  discard (loop (fun first => do
    if ← atEnd then return none
    outerAttributes read
    let shape ← if ← op? "..." then pure .patternRest else parameter read
    guard (shape != .receiver || first)
    if ← atEnd then return none
    op ","
    if shape == .patternRest then return none
    return some false) true)

/-- The words in front of a function, of which `safe` may stand only in a foreign block. -/
def functionModifiers (safe : Bool) : Reading Unit := do
  discard (word? "const")
  discard (word? "async")
  if safe && (← peek (Trees.word "safe")) then copy else discard (word? "unsafe")
  if ← peek (Trees.word "extern") then convention

/-- Whether a function comes next. -/
def startsFunction (safe : Bool) : Reading Bool :=
  ahead do
    functionModifiers safe
    peek (Trees.word "fn")

/-- The head of a function. -/
def signature (read : Phrases) (safe : Bool) : Reading Unit := do
  functionModifiers safe
  word "fn"
  ident
  generics read
  inside .paren (parameters read)
  discard (resultType read true)
  whereClause read

/-- A function whose body may be left out. -/
def function (read : Phrases) (safe : Bool) : Reading Unit := do
  signature read safe
  if !(← op? ";") then bracedStatements read

/-! ### Other items -/

/-- A new name for what is imported, if there is one. -/
def newName : Reading Unit := do
  if ← word? "as" then
    guard (← peek fun trees => Trees.ident trees || Trees.word "_" trees)
    copy

/-- What is imported. -/
def useTreePhrase (read : Phrases) (rooted : Bool) : Reading Shape := do
  let trees := (← get).rest
  if Trees.ident trees || Trees.anyOf ["self", "super", "crate", "try"] trees then
    copy
    if ← op? "::" then discard (read (.useTree false)) else newName
  else if Trees.op "*" trees then op "*"
  else
    inside .brace (separatedToEnd "," do
      let root ← if rooted then op? "::" else pure false
      discard (read (.useTree (rooted && !root))))
  return .plain

/-- A constant of an item. -/
def constantItem (read : Phrases) : Reading Unit := do
  word "const"
  guard (← peek fun trees => Trees.ident trees || Trees.word "_" trees)
  copy
  generics read
  op ":"
  discard (read (.type true))
  if ← op? "=" then discard (read (.expression true))
  whereClause read
  op ";"

/-- A variable of an item. -/
def staticItem (read : Phrases) : Reading Unit := do
  word "static"
  discard (word? "mut")
  ident
  if ← op? "=" then
    discard (read (.expression true))
  else
    op ":"
    discard (read (.type true))
    if ← op? "=" then discard (read (.expression true))
  op ";"

/-- A name for a type. Conditions stand before or after the type. -/
def typeItem (read : Phrases) (defaulted conditionsBefore conditionsAfter : Bool) : Reading Unit := do
  if defaulted then discard (word? "default")
  word "type"
  ident
  generics read
  if ← op? ":" then
    loop (fun _ => do
      let stop (trees : List Tree) : Bool := Trees.word "where" trees || Trees.op "=" trees || Trees.op ";" trees
      if ← peek stop then return none
      discard (read (.bound false true))
      if ← peek stop then return none
      op "+"
      return some ()) ()
  let conditioned ← peek (Trees.word "where")
  if conditionsBefore then whereClause read
  if ← op? "=" then discard (read (.type true))
  if conditionsAfter && !(conditionsBefore && conditioned) then whereClause read
  op ";"

/-- Fields with names. -/
def namedFields (read : Phrases) : Reading Unit :=
  inside .brace (separatedToEnd "," do
    outerAttributes read
    discard visibility
    if ← peek (Trees.word "_") then copy else ident
    op ":"
    discard (read (.type true)))

/-- Fields without names. -/
def unnamedFields (read : Phrases) : Reading Unit :=
  inside .paren (separatedToEnd "," do
    outerAttributes read
    discard visibility
    discard (read (.type true)))

def structItem (read : Phrases) : Reading Unit := do
  word "struct"
  ident
  generics read
  let conditioned ← peek (Trees.word "where")
  whereClause read
  if ← peek (Trees.group .brace) then namedFields read
  else if !conditioned && (← peek (Trees.group .paren)) then
    unnamedFields read
    whereClause read
    op ";"
  else op ";"

def enumItem (read : Phrases) : Reading Unit := do
  word "enum"
  ident
  generics read
  whereClause read
  inside .brace (separatedToEnd "," do
    outerAttributes read
    discard visibility
    ident
    if ← peek (Trees.group .brace) then namedFields read
    else if ← peek (Trees.group .paren) then unnamedFields read
    if ← op? "=" then discard (read (.expression true)))

def unionItem (read : Phrases) : Reading Unit := do
  word "union"
  ident
  generics read
  whereClause read
  namedFields read

/-- A macro call as an item; one in braces needs no semicolon. -/
def macroItem : Reading Unit := do
  plainPath
  op "!"
  if ← peek fun trees => Trees.ident trees || Trees.word "try" trees then copy
  let delimiter ← anyGroup
  if delimiter != .brace then op ";"

/-- Whether trees begin with the path of a macro. -/
def Trees.macroPath (trees : List Tree) : Bool :=
  Trees.ident trees || Trees.anyOf ["self", "super", "crate"] trees || Trees.op "::" trees

/-- An item of a trait. -/
def traitItem (read : Phrases) : Reading Unit := do
  outerAttributes read
  let isPublic ← visibility
  let defaulted ← word? "default"
  if ← startsFunction false then function read false
  else if ← peek (Trees.word "const") then constantItem read
  else if ← peek (Trees.word "type") then typeItem read false false true
  else
    guard (!isPublic && !defaulted)
    guard (← peek Trees.macroPath)
    macroItem

/-- The supertraits, conditions and items of a trait. -/
def traitRest (read : Phrases) : Reading Unit := do
  if ← op? ":" then
    loop (fun _ => do
      let stop (trees : List Tree) : Bool := Trees.word "where" trees || Trees.group .brace trees
      if ← peek stop then return none
      discard (read (.bound false true))
      if ← peek stop then return none
      op "+"
      return some ()) ()
  whereClause read
  inside .brace do
    innerAttributes read
    whileTrue (return !(← atEnd)) (traitItem read)

/-- A trait, or a name for bounds. -/
def traitDeclaration (read : Phrases) : Reading Unit := do
  word "trait"
  ident
  generics read
  if ← op? "=" then
    loop (fun _ => do
      let stop (trees : List Tree) : Bool := Trees.word "where" trees || Trees.op ";" trees
      if ← peek stop then return none
      discard (read (.bound false true))
      if ← peek stop then return none
      op "+"
      return some ()) ()
    whereClause read
    op ";"
  else traitRest read

/-- An item of an implementation. -/
def implItem (read : Phrases) : Reading Unit := do
  outerAttributes read
  let isPublic ← visibility
  let defaulted ← do
    if ← peek fun trees => Trees.word "default" trees && !Trees.op "!" (Trees.next trees) then
      copy
      pure true
    else pure false
  if ← startsFunction false then function read false
  else if ← peek (Trees.word "const") then constantItem read
  else if ← peek (Trees.word "type") then typeItem read false false true
  else
    guard (!isPublic && !defaulted)
    guard (← peek Trees.macroPath)
    macroItem

/-- Whether parameters, and not a qualified path, come after the word for an implementation. -/
def Trees.implParameters (trees : List Tree) : Bool :=
  let second := Trees.next trees
  let third := Trees.next second
  Trees.op "<" trees &&
    (Trees.op ">" second || Trees.op "#" second || Trees.word "const" second ||
      ((Trees.lifetime second || Trees.ident second) &&
        (Trees.op ">" third || Trees.op "," third || (Trees.op ":" third && !Trees.op "::" third) ||
          Trees.op "=" third)))

/-- An implementation. -/
def implDeclaration (read : Phrases) : Reading Unit := do
  discard (word? "default")
  discard (word? "unsafe")
  word "impl"
  if ← peek Trees.implParameters then generics read
  if ← peek fun trees => Trees.op "?" trees && Trees.word "const" (Trees.next trees) then op "?"
  discard (word? "const")
  let negative ← peek fun trees => Trees.op "!" trees && !Trees.group .brace (Trees.next trees)
  if negative then op "!"
  discard (read (.type true))
  if ← word? "for" then discard (read (.type true)) else guard !negative
  whereClause read
  inside .brace do
    innerAttributes read
    whileTrue (return !(← atEnd)) (implItem read)

/-- An item of a foreign block. -/
def foreignItem (read : Phrases) : Reading Unit := do
  outerAttributes read
  let isPublic ← visibility
  if ← startsFunction true then function read true
  else if ← peek fun trees =>
      Trees.word "static" trees ||
        (Trees.anyOf ["unsafe", "safe"] trees && Trees.word "static" (Trees.next trees)) then
    if !(← peek (Trees.word "static")) then copy
    word "static"
    discard (word? "mut")
    ident
    op ":"
    discard (read (.type true))
    if ← op? "=" then discard (read (.expression true))
    op ";"
  else if ← peek (Trees.word "type") then typeItem read false true true
  else
    guard !isPublic
    guard (← peek Trees.macroPath)
    macroItem

/-- Functions and variables from elsewhere. -/
def foreignBlock (read : Phrases) : Reading Unit := do
  discard (word? "unsafe")
  convention
  inside .brace do
    innerAttributes read
    whileTrue (return !(← atEnd)) (foreignItem read)

def moduleItem (read : Phrases) : Reading Unit := do
  discard (word? "unsafe")
  word "mod"
  if ← peek (Trees.word "try") then copy else ident
  if !(← op? ";") then
    inside .brace do
      innerAttributes read
      whileTrue (return !(← atEnd)) do
        outerAttributes read
        discard (read .item)

/-- A macro that is declared like a function. -/
def macroDeclaration : Reading Unit := do
  word "macro"
  ident
  if ← peek (Trees.group .paren) then copy
  guard (← peek (Trees.group .brace))
  copy

/-- An import of a whole crate. -/
def crateItem : Reading Unit := do
  word "extern"
  word "crate"
  if ← peek (Trees.word "self") then copy else ident
  newName
  op ";"

/-- An item, after its attributes. -/
def itemPhrase (read : Phrases) : Reading Shape := do
  let isPublic ← visibility
  let trees := (← get).rest
  let second := Trees.next trees
  if ← startsFunction false then function read false
  else if Trees.word "extern" trees then
    if Trees.word "crate" second then crateItem else foreignBlock read
  else if Trees.word "use" trees then
    copy
    let rooted ← op? "::"
    discard (read (.useTree !rooted))
    op ";"
  else if Trees.word "static" trees then staticItem read
  else if Trees.word "const" trees then constantItem read
  else if Trees.word "unsafe" trees then
    if Trees.word "trait" second then
      copy
      traitDeclaration read
    else if Trees.word "auto" second then
      copy
      copy
      traitDeclaration read
    else if Trees.word "impl" second then implDeclaration read
    else if Trees.word "extern" second then foreignBlock read
    else moduleItem read
  else if Trees.word "mod" trees then moduleItem read
  else if Trees.word "type" trees then typeItem read false true false
  else if Trees.word "struct" trees then structItem read
  else if Trees.word "enum" trees then enumItem read
  else if Trees.word "union" trees && Trees.ident second then unionItem read
  else if Trees.word "trait" trees then traitDeclaration read
  else if Trees.word "auto" trees && Trees.word "trait" second then
    copy
    traitDeclaration read
  else if Trees.word "impl" trees || (Trees.word "default" trees && !Trees.op "!" second) then
    implDeclaration read
  else if Trees.word "macro" trees then macroDeclaration
  else
    guard !isPublic
    guard (Trees.macroPath trees)
    macroItem
  return .plain

end IsaForge.Code
