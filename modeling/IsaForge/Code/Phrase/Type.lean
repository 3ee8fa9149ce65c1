import IsaForge.Code.Phrase.Reading

/-!
Paths, types and the bounds on them. Arguments of a path are written down with its lifetimes first.
-/

namespace IsaForge.Code

open Reading

/-! ### Paths, macros and attributes -/

/-- Whether trees begin with a name that a path without arguments may hold. -/
def Trees.pathName (trees : List Tree) : Bool :=
  Trees.ident trees || Trees.anyOf ["super", "self", "Self", "crate"] trees

/-- A path without arguments. -/
def plainPath : Reading Unit := do
  discard (op? "::")
  let name : Reading Unit := do
    guard (← peek Trees.pathName)
    copy
  name
  whileTrue (op? "::") name

/-- The arguments of a macro, in brackets of any kind. -/
def macroArguments : Reading Shape := do
  let delimiter ← anyGroup
  return .macroCall (delimiter == .brace)

/-- What an attribute says: a path, maybe with arguments or with a value. -/
def attributeContent (read : Phrases) : Reading Unit := do
  if ← peek (Trees.word "unsafe") then copy else plainPath
  let grouped ← peek fun trees =>
    Trees.group .paren trees || Trees.group .bracket trees || Trees.group .brace trees
  if grouped then
    discard anyGroup
  else if ← peek fun trees => Trees.op "=" trees && !Trees.op "==" trees && !Trees.op "=>" trees then
    op "="
    let nested ← peek fun trees => Trees.op "#" trees && Trees.group .bracket (Trees.next trees)
    guard !nested
    discard (read (.expression true))

/-- An attribute in front of what it is about. -/
def outerAttribute (read : Phrases) : Reading Unit := do
  op "#"
  inside .bracket (attributeContent read)

/-- The attributes in front of a phrase. -/
def outerAttributes (read : Phrases) : Reading Unit :=
  whileTrue (peek (Trees.op "#")) (outerAttribute read)

/-- The attributes at the beginning of a block that are about the block. -/
def innerAttributes (read : Phrases) : Reading Unit :=
  whileTrue (peek fun trees => Trees.op "#" trees && Trees.op "!" (Trees.next trees)) do
    op "#"
    op "!"
    inside .bracket (attributeContent read)

/-- The statements of a block in braces, which may begin with attributes about the block. -/
def bracedStatements (read : Phrases) : Reading Unit :=
  inside .brace do
    innerAttributes read
    discard (read .statements)

/-- A block in braces. -/
def block (read : Phrases) : Reading Unit :=
  inside .brace (discard (read .statements))

/-! ### Arguments and bounds -/

/-- A constant as an argument: a literal or a block. -/
def constantArgument (read : Phrases) : Reading Unit := do
  if ← peek Trees.literal then literal else bracedStatements read

/-- Whether trees begin with a constant as an argument. -/
def Trees.constant (trees : List Tree) : Bool :=
  Trees.literal trees || Trees.group .brace trees

/-- The lifetimes that a type is stated for, if there are some. -/
def boundLifetimes (read : Phrases) : Reading Bool := do
  if !(← word? "for") then return false
  op "<"
  loop (fun _ => do
    if ← peek (Trees.op ">") then return none
    outerAttributes read
    lifetime
    if ← peek (Trees.op ">") then return none
    op ","
    return some ()) ()
  op ">"
  return true

/-- The result of a function, if it has one. -/
def resultType (read : Phrases) (plus : Bool) : Reading (Option Shape) := do
  if ← op? "->" then return some (← read (.type plus)) else return none

/-- Whether trees begin with the arguments of a function trait, maybe after a path separator. -/
def Trees.parenArguments (trees : List Tree) : Bool :=
  Trees.group .paren trees || (Trees.op "::" trees && Trees.group .paren (Trees.next (Trees.next trees)))

/-- The arguments of a function trait. A path separator in front of them is not written down. -/
def parenArguments (read : Phrases) : Reading (Option Shape) := do
  if ← peek (Trees.op "::") then
    discard take
    discard take
  inside .paren (separatedToEnd "," (discard (read (.type true))))
  resultType read false

/-- What is known of a path that was read. -/
structure PathRead where
  rooted : Bool := false
  segments : Nat := 0
  /-- Whether the last segment has arguments. -/
  closed : Bool := false
  /-- Whether any segment has arguments. -/
  arguments : Bool := false
  /-- Whether the arguments of the last segment are those of a function trait. -/
  functional : Bool := false

namespace PathRead

def addSegment (path : PathRead) (arguments : Bool) : PathRead :=
  { path with segments := path.segments + 1, closed := arguments, arguments := path.arguments || arguments }

end PathRead

/-- The captured names of an opaque type. -/
def captures : Reading Unit := do
  word "use"
  op "<"
  loop (fun _ => do
    if ← peek (Trees.op ">") then return none
    if ← peek Trees.lifetime then lifetime
    else
      guard (← peek fun trees => Trees.ident trees || Trees.word "Self" trees)
      copy
    if ← peek (Trees.op ">") then return none
    op ","
    return some ()) ()
  op ">"

/-- Whether trees begin with a further bound. -/
def Trees.bound (trees : List Tree) : Bool :=
  Trees.anyWord trees || Trees.op "::" trees || Trees.op "?" trees || Trees.lifetime trees ||
    Trees.group .paren trees

/-- An argument of a path; tells whether it is a lifetime. -/
def genericArgument (read : Phrases) : Reading Bool := do
  if ← peek fun trees => Trees.lifetime trees && !Trees.op "+" (Trees.next trees) then
    lifetime
    return true
  if ← peek Trees.constant then
    constantArgument read
    return false
  let shape ← read (.type true)
  if shape == .typeName then
    if ← op? "=" then
      if ← peek Trees.constant then constantArgument read else discard (read (.type true))
    else if ← op? ":" then
      loop (fun _ => do
        if ← peek fun trees => Trees.op "," trees || Trees.op ">" trees then return none
        discard (read (.bound false true))
        if ← op? "+" then return some () else return none) ()
  return false

/-- The arguments of a path in angle brackets. -/
def genericArguments (read : Phrases) : Reading Unit := do
  discard (op? "::")
  op "<"
  let arguments ← loop (fun arguments => do
    if ← peek (Trees.op ">") then return none
    let (isLifetime, written) ← apart (genericArgument read)
    if ← peek (Trees.op ">") then return some (arguments ++ [(isLifetime, written, false)])
    discard (apart (op ","))
    return some (arguments ++ [(isLifetime, written, true)])) []
  let lifetimes := arguments.filter (·.1)
  let others := arguments.filter (!·.1)
  let comma := Tree.punct ',' .alone
  let write (separated : Bool) (argument : Bool × List Tree × Bool) : Reading Bool := do
    if !separated then emit comma
    emitAll argument.2.1
    if argument.2.2 then emit comma
    return argument.2.2
  let separated ← lifetimes.foldlM (fun _ argument => write true argument) true
  discard (others.foldlM write separated)
  op ">"

/-! ### Paths -/

/-- One segment of a path; tells whether it has arguments. In an expression the arguments need a separator in front. -/
def pathSegment (read : Phrases) (inExpression : Bool) : Reading Bool := do
  if ← peek (Trees.anyOf ["super", "self", "crate", "try"]) then
    copy
    return false
  if ← peek (Trees.word "Self") then copy else ident
  let arguments ← peek fun trees =>
    (!inExpression && Trees.op "<" trees && !Trees.op "<=" trees && !Trees.op "<<=" trees) ||
      (Trees.op "::" trees && Trees.op "<" (Trees.next (Trees.next trees)))
  if arguments then genericArguments read
  return arguments

/-- The further segments of a path. -/
def pathRest (read : Phrases) (inExpression : Bool) (path : PathRead) : Reading PathRead :=
  loop (fun path => do
    let more ← peek fun trees =>
      Trees.op "::" trees && !Trees.group .paren (Trees.next (Trees.next trees))
    if !more then return none
    op "::"
    return some (path.addSegment (← pathSegment read inExpression))) path

/-- A path. -/
def path (read : Phrases) (inExpression : Bool) : Reading PathRead := do
  let rooted ← op? "::"
  let arguments ← pathSegment read inExpression
  pathRest read inExpression (PathRead.addSegment { rooted } arguments)

/-- A path that may begin with a type in angle brackets, in which case nothing is told about it. -/
def qualifiedPath (read : Phrases) (inExpression : Bool) : Reading (Option PathRead) := do
  if !(← peek (Trees.op "<")) then return some (← path read inExpression)
  op "<"
  discard (read (.type true))
  if ← word? "as" then discard (path read false)
  op ">"
  op "::"
  discard (pathSegment read inExpression)
  whileTrue (op? "::") (discard (pathSegment read inExpression))
  return none

/-- Whether a macro is called by the path that was just read. -/
def callsMacro (path : PathRead) : Reading Bool := do
  if path.arguments then return false
  peek fun trees => Trees.op "!" trees && !Trees.op "!=" trees

/-! ### Bounds -/

/-- A trait with its modifiers. -/
def traitBound (read : Phrases) (constant : Bool) : Reading Unit := do
  let quantified ← boundLifetimes read
  if ← peek (Trees.group .bracket) then
    inside .bracket (word "const")
    guard constant
  else if ← peek (Trees.word "const") then
    copy
    guard constant
  else if ← peek fun trees => Trees.op "~" trees && Trees.word "const" (Trees.next trees) then
    op "~"
    copy
  let optional ← op? "?"
  guard !(quantified && optional)
  let found ← path read false
  if !found.closed then
    if ← peek Trees.parenArguments then discard (parenArguments read)

/-- A bound: a lifetime, captured names or a trait. -/
def boundPhrase (read : Phrases) (mayCapture constant : Bool) : Reading Shape := do
  if ← peek Trees.lifetime then
    lifetime
    return .noTrait
  if ← peek (Trees.word "use") then
    captures
    guard mayCapture
    return .noTrait
  if ← peek (Trees.group .paren) then
    inside .paren (traitBound read constant)
  else traitBound read constant
  return .plain

/-- One or more bounds, of which one has to name a trait. -/
def bounds (read : Phrases) (plus mayCapture constant : Bool) : Reading Unit := do
  let (_, hasTrait) ← loop (fun (finished, hasTrait) => do
    if finished then return none
    let shape ← read (.bound mayCapture constant)
    let hasTrait := hasTrait || shape != .noTrait
    if !plus then return some (true, hasTrait)
    if !(← op? "+") then return some (true, hasTrait)
    let more ← peek fun trees =>
      Trees.bound trees || Trees.op "~" trees || (constant && Trees.group .bracket trees)
    return some (!more, hasTrait)) (false, false)
  guard hasTrait

/-- Bounds added to a first one, each after a plus. -/
def addedBounds (read : Phrases) : Reading Nat :=
  loop (fun count => do
    if ← op? "+" then
      discard (read (.bound false false))
      return some (count + 1)
    return none) 0

/-! ### Types -/

/-- The calling convention of a function. -/
def convention : Reading Unit := do
  word "extern"
  match (← get).rest with
  | .literal text :: _ =>
    if text.toList.head? == some '"' || text.toList.head? == some 'r' then copy
  | _ => return

/-- Whether trees begin with the parameter that stands for any number of arguments. -/
def Trees.variadic (trees : List Tree) : Bool :=
  Trees.op "..." trees ||
    ((Trees.ident trees || Trees.word "_" trees) && Trees.op ":" (Trees.next trees) &&
      Trees.op "..." (Trees.next (Trees.next trees)))

/-- A parameter of a function type. -/
def functionTypeParameter (read : Phrases) (first : Bool) : Reading Unit := do
  let mutableSelf ← peek fun trees => first && Trees.word "mut" trees && Trees.word "self" (Trees.next trees)
  if mutableSelf then copy
  let named ← peek fun trees =>
    (Trees.ident trees || Trees.word "_" trees || (first && Trees.word "self" trees)) &&
      Trees.op ":" (Trees.next trees) && !Trees.op "::" (Trees.next trees)
  if named then
    copy
    op ":"
  if mutableSelf && !named then word "self" else discard (read (.type true))

/-- The type of a function. -/
def functionType (read : Phrases) : Reading Unit := do
  discard (word? "unsafe")
  if ← peek (Trees.word "extern") then convention
  word "fn"
  inside .paren (discard (loop (fun first => do
    if ← atEnd then return none
    outerAttributes read
    if ← peek Trees.variadic then
      if !(← peek (Trees.op "...")) then
        copy
        op ":"
      op "..."
      discard (op? ",")
      return none
    functionTypeParameter read first
    if ← atEnd then return none
    op ","
    return some false) true))
  discard (resultType read false)

/-- What stands in the parentheses of a type. -/
inductive ParenType where
  /-- A type of its own, of the given shape. -/
  | complete (shape : Shape)
  /-- A bound, which others may follow. -/
  | bound
  /-- One type in parentheses, of the given shape. -/
  | single (shape : Shape)

/-- The content of a type in parentheses. -/
def parenTypeContent (read : Phrases) : Reading ParenType := do
  if ← atEnd then return .complete .plain
  if ← peek Trees.lifetime then
    bounds read true false true
    return .complete .typeParen
  if ← peek (Trees.op "?") then
    traitBound read false
    return .bound
  let first ← read (.type true)
  if !(← op? ",") then return .single first
  separatedToEnd "," (discard (read (.type true)))
  return .complete .plain

/-- A type in parentheses: a tuple, a bound, or another type. -/
def parenType (read : Phrases) (plus : Bool) : Reading Shape := do
  match ← inside .paren (parenTypeContent read) with
  | .complete shape => return shape
  | .bound => return if (← addedBounds read) == 0 then .loneBound else .plain
  | .single shape =>
    let joins := shape == .typeName || shape == .typePath || shape == .loneBound
    if plus && joins && (← peek (Trees.op "+")) then
      discard (addedBounds read)
      return .plain
    return .typeParen

/-- The arguments of function traits at the end of a path. After some of them the path may go on. -/
def functionalPath (read : Phrases) (found : PathRead) : Reading PathRead :=
  loop (fun found => do
    if found.closed || !(← peek Trees.parenArguments) then return none
    let result ← parenArguments read
    let closed := { found with closed := true, arguments := true, functional := true }
    match result with
    | none => return some (← pathRest read false closed)
    | some .typeParen => return some (← pathRest read false closed)
    | some _ => return some closed) found

/-- A type that begins with a path. -/
def pathType (read : Phrases) (plus quantified : Bool) : Reading Shape := do
  let some found ← qualifiedPath read false | return .plain
  let found ← functionalPath read found
  if ← callsMacro found then
    op "!"
    discard macroArguments
    return .plain
  if quantified || (plus && (← peek (Trees.op "+"))) then
    let (_, alone) ← loop (fun (finished, _) => do
      if finished || !plus then return none
      if !(← op? "+") then return none
      if !(← peek Trees.bound) then return some (true, false)
      discard (read (.bound false false))
      return some (false, false)) (false, true)
    return if alone then .loneBound else .plain
  return if !found.rooted && found.segments == 1 && !found.functional then .typeName else .typePath

/-- A type. -/
def typePhrase (read : Phrases) (plus : Bool) : Reading Shape := do
  let quantified ← boundLifetimes read
  if quantified then
    guard (← peek fun trees =>
      Trees.ident trees || Trees.anyOf ["fn", "unsafe", "extern", "super", "self", "Self", "crate"] trees)
  let trees := (← get).rest
  if Trees.group .paren trees then parenType read plus
  else if Trees.anyOf ["fn", "unsafe", "extern"] trees then
    functionType read
    return .plain
  else if Trees.pathName trees || Trees.op "::" trees || Trees.op "<" trees then
    pathType read plus quantified
  else if Trees.word "dyn" trees then
    copy
    discard (op? "*")
    bounds read plus false true
    return .plain
  else if Trees.group .bracket trees then
    inside .bracket do
      discard (read (.type true))
      if ← op? ";" then discard (read (.expression true))
    return .plain
  else if Trees.op "*" trees then
    op "*"
    guard (← peek (Trees.anyOf ["const", "mut"]))
    copy
    discard (read (.type false))
    return .plain
  else if Trees.op "&" trees then
    op "&"
    if ← peek Trees.lifetime then lifetime
    discard (word? "mut")
    discard (read (.type false))
    return .plain
  else if Trees.op "!" trees then
    op "!"
    return .plain
  else if Trees.word "impl" trees then
    copy
    bounds read plus true true
    return .plain
  else if Trees.word "_" trees then
    copy
    return .plain
  else if Trees.lifetime trees then
    bounds read true false true
    return .plain
  else failure

end IsaForge.Code
