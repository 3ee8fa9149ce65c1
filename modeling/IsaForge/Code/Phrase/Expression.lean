import IsaForge.Code.Phrase.Pattern

/-!
Expressions: operands, what may follow an operand, and operators by precedence. Comparisons do not chain, and a range is
never the left operand of an operator.
-/

namespace IsaForge.Code

open Reading

/-! ### Operators -/

/-- The operators with two operands. An operator comes before those that it begins with. -/
def binaryOperators : List (String × Precedence) :=
  [("+=", .assign), ("-=", .assign), ("*=", .assign), ("/=", .assign), ("%=", .assign), ("^=", .assign),
    ("&=", .assign), ("|=", .assign), ("<<=", .assign), (">>=", .assign), ("&&", .conjunction),
    ("||", .disjunction), ("<<", .shift), (">>", .shift), ("==", .comparison), ("<=", .comparison),
    ("!=", .comparison), (">=", .comparison), ("+", .sum), ("-", .sum), ("*", .product), ("/", .product),
    ("%", .product), ("^", .bitXor), ("&", .bitAnd), ("|", .bitOr), ("<", .comparison), (">", .comparison)]

/-- The operator that trees begin with. -/
def Trees.binaryOperator? (trees : List Tree) : Option (String × Precedence) :=
  binaryOperators.find? fun (text, _) => Trees.op text trees

/-- Whether trees begin with the mark of an assignment. -/
def Trees.assignment (trees : List Tree) : Bool :=
  Trees.op "=" trees && !Trees.op "=>" trees

/-- How tightly what comes next binds to an operand on its left. -/
def Trees.precedence (trees : List Tree) : Precedence :=
  match Trees.binaryOperator? trees with
  | some (_, precedence) => precedence
  | none =>
    if Trees.assignment trees then .assign
    else if Trees.op ".." trees then .range
    else if Trees.word "as" trees then .cast
    else .loosest

/-- The right operand of an operator, with the operators that bind tighter. -/
def rightOperand (read : Phrases) (struct : Bool) (precedence : Precedence) : Reading Unit := do
  let first ← read (.operand struct)
  discard (loop (fun (finished, shape) => do
    if finished then return none
    let next := Trees.precedence (← get).rest
    if precedence.level < next.level || (next == precedence && precedence == .assign) then
      let before := (← get).rest.length
      let shape ← read (.operators struct shape next)
      return some ((← get).rest.length == before, shape)
    return none) (false, first))

/-- Whether nothing that could be the upper end of a range comes next. -/
def Trees.endsRange (struct : Bool) (trees : List Tree) : Bool :=
  trees.isEmpty || Trees.op "," trees || Trees.op ";" trees ||
    (Trees.op "." trees && !Trees.op ".." trees) || Trees.op "?" trees || Trees.op "=>" trees ||
    (!struct && Trees.group .brace trees) ||
    ["=", "+", "/", "%", "^", ">", "<=", "!=", "-=", "*=", "&=", "|=", "<<="].any (Trees.op · trees) ||
    Trees.word "as" trees

/-- The upper end of a range, if it has one. -/
def rangeEnd (read : Phrases) (struct : Bool) : Reading Unit := do
  let included ← rangeLimits false
  let ends ← peek (Trees.endsRange struct)
  if included || !ends then rightOperand read struct .range

/-- Whether what comes next may not follow a cast. -/
def Trees.trailer (trees : List Tree) : Bool :=
  (Trees.op "." trees && !Trees.op ".." trees) || Trees.op "?" trees || Trees.group .bracket trees ||
    Trees.group .paren trees

/-- One operator that binds at least as tightly as `least`, after an operand of shape `left`. -/
def operatorStep (read : Phrases) (struct : Bool) (least : Precedence) (left : Shape) :
    Reading (Option Shape) := do
  if left == .range then return none
  let trees := (← get).rest
  match Trees.binaryOperator? trees with
  | some (text, precedence) =>
    if precedence.level < least.level then return none
    guard !(precedence == .comparison && left == .comparison)
    op text
    rightOperand read struct precedence
    return some (if precedence == .comparison then .comparison else .plain)
  | none =>
    if least.level ≤ Precedence.assign.level && Trees.assignment trees then
      op "="
      rightOperand read struct .assign
      return some .plain
    else if least.level ≤ Precedence.range.level && Trees.op ".." trees then
      rangeEnd read struct
      return some .range
    else if least.level ≤ Precedence.cast.level && Trees.word "as" trees then
      copy
      discard (read (.type false))
      guard !(← peek Trees.trailer)
      return some .plain
    else return none

/-- The operators after an operand. -/
def operatorsPhrase (read : Phrases) (struct : Bool) (left : Shape) (least : Precedence) : Reading Shape :=
  loop (operatorStep read struct least) left

/-- An expression. -/
def expressionPhrase (read : Phrases) (struct : Bool) : Reading Shape := do
  let left ← read (.operand struct)
  operatorsPhrase read struct left .loosest

/-! ### What may follow an operand -/

/-- Arguments in parentheses. -/
def callArguments (read : Phrases) : Reading Unit :=
  inside .paren (separatedToEnd "," (discard (read (.expression true))))

/-- The numbers of nested members that are written together as one number with points. -/
def splitIndices (text : String) : List String :=
  go [] text.toList
where
  /-- `part` holds the characters of the current number in reverse. -/
  go (part : List Char) : List Char → List String
    | [] => [String.ofList part.reverse]
    | '.' :: rest => String.ofList part.reverse :: go [] rest
    | c :: rest => go (c :: part) rest

/-- Whether the text of a literal is a number with a point or an exponent. -/
def isFloat (text : String) : Bool :=
  let cs := text.toList
  Trees.isNumber text && !(cs.head? == some '0' && ['x', 'o', 'b'].contains (cs.getD 1 ' ')) &&
    (cs.contains '.' || hasExponent (cs.dropWhile fun c => c.isDigit || c == '_'))
where
  /-- Whether the characters after the digits of a number are an exponent. -/
  hasExponent : List Char → Bool
    | [] => false
    | mark :: rest =>
      (mark == 'e' || mark == 'E') &&
        (rest.dropWhile fun c => c == '_' || c == '+' || c == '-').head?.any Char.isDigit

/-- Members that are written together; tells whether a point at the end asks for one more. -/
def nestedMembers (text : String) : Reading Bool := do
  let parts := splitIndices text
  let pending := parts.getLast? == some ""
  let indices := if pending then parts.dropLast else parts
  for (part, i) in indices.zipIdx do
    if i != 0 then emit (.punct '.' .alone)
    let some value := memberName.indexValue? part | failure
    emit (.literal (Text.decimal value))
  if pending then emit (.punct '.' .alone)
  return pending

/-- A member, a method call or a suspension after its point. -/
def memberAccess (read : Phrases) : Reading Unit := do
  op "."
  let pending ← match (← get).rest with
    | .literal text :: _ =>
      if isFloat text then do
        discard take
        nestedMembers text
      else pure true
    | _ => pure true
  if !pending then return
  if ← word? "await" then return
  let named ← memberName
  let qualified ← peek (Trees.op "::")
  if named && qualified then
    genericArguments read
    callArguments read
  else if named && (← peek (Trees.group .paren)) then
    callArguments read

/-- One thing after an operand: a call, a member, an index or the mark that passes errors on. -/
def trailerStep (read : Phrases) (shape : Shape) : Reading (Option Shape) := do
  let trees := (← get).rest
  if Trees.group .paren trees then
    callArguments read
    return some .plain
  else if Trees.op "." trees && !Trees.op ".." trees && shape != .range then
    memberAccess read
    return some .plain
  else if Trees.group .bracket trees then
    inside .bracket (discard (read (.expression true)))
    return some .plain
  else if Trees.op "?" trees && shape != .range then
    op "?"
    return some .plain
  else return none

/-- All that follows an operand. -/
def trailers (read : Phrases) (shape : Shape) : Reading Shape :=
  loop (trailerStep read) shape

/-! ### Operands -/

/-- A field of a structure expression. -/
def fieldValue (read : Phrases) : Reading Unit := do
  outerAttributes read
  let named ← memberName
  if !named || (← peek (Trees.op ":")) then
    op ":"
    discard (read (.expression true))

/-- The fields of a structure expression, maybe with another structure that gives the rest. -/
def structureFields (read : Phrases) : Reading Unit :=
  inside .brace (loop (fun _ => do
    if ← atEnd then return none
    if ← op? ".." then
      if !(← atEnd) then discard (read (.expression true))
      return none
    fieldValue read
    if ← atEnd then return none
    op ","
    return some ()) ())

/-- A path, a macro call or a structure. -/
def pathExpression (read : Phrases) (struct : Bool) : Reading Shape := do
  let found? ← qualifiedPath read true
  if let some found := found? then
    if ← callsMacro found then
      op "!"
      return ← macroArguments
  if struct && (← peek (Trees.group .brace)) then structureFields read
  return .plain

/-- An array: its elements, or one element and how often it is repeated. -/
def arrayContent (read : Phrases) : Reading Unit := do
  if ← atEnd then return
  discard (read (.expression true))
  if ← op? ";" then discard (read (.expression true))
  else if !(← atEnd) then
    op ","
    separatedToEnd "," (discard (read (.expression true)))

/-- An expression in parentheses or a tuple. -/
def parenContent (read : Phrases) : Reading Unit :=
  separatedToEnd "," (discard (read (.expression true)))

/-- A parameter of a closure. -/
def closureParameter (read : Phrases) : Reading Unit := do
  outerAttributes read
  discard (read .pattern)
  if ← op? ":" then discard (read (.type true))

/-- A closure. -/
def closure (read : Phrases) (struct : Bool) : Reading Unit := do
  discard (boundLifetimes read)
  for modifier in ["const", "static", "async", "move"] do
    discard (word? modifier)
  op "|"
  loop (fun _ => do
    if ← peek (Trees.op "|") then return none
    closureParameter read
    if ← peek (Trees.op "|") then return none
    op ","
    return some ()) ()
  op "|"
  if ← op? "->" then
    discard (read (.type true))
    block read
  else discard (read (.expression struct))

/-- Whether trees begin with the lifetimes that a closure is stated for. -/
def Trees.closureLifetimes (trees : List Tree) : Bool :=
  let second := Trees.next trees
  let third := Trees.next second
  Trees.word "for" trees && Trees.op "<" second && (Trees.lifetime third || Trees.op ">" third)

/-- Whether trees begin with a closure. -/
def Trees.closure (trees : List Tree) : Bool :=
  let second := Trees.next trees
  Trees.op "|" trees || Trees.word "move" trees || Trees.closureLifetimes trees ||
    (Trees.word "const" trees && !Trees.group .brace second) || Trees.word "static" trees ||
    (Trees.word "async" trees && (Trees.op "|" second || Trees.word "move" second))

/-- Whether trees begin with an expression. -/
def Trees.expression (trees : List Tree) : Bool :=
  (Trees.anyWord trees && !Trees.word "as" trees) || Trees.group .paren trees || Trees.group .bracket trees ||
    Trees.group .brace trees || Trees.literal trees ||
    (Trees.op "!" trees && !Trees.op "!=" trees) ||
    (Trees.op "-" trees && !Trees.op "-=" trees && !Trees.op "->" trees) ||
    (Trees.op "*" trees && !Trees.op "*=" trees) || (Trees.op "|" trees && !Trees.op "|=" trees) ||
    (Trees.op "&" trees && !Trees.op "&=" trees) || Trees.op ".." trees ||
    (Trees.op "<" trees && !Trees.op "<=" trees && !Trees.op "<<=" trees) || Trees.op "::" trees ||
    Trees.lifetime trees || Trees.op "#" trees

/-- The value that a jump carries, if it carries one. -/
def jumpValue (read : Phrases) (struct : Bool) : Reading Unit := do
  if ← peek Trees.expression then discard (read (.expression struct))

/-- A jump out of a loop or a labelled block. -/
def breakExpression (read : Phrases) (struct : Bool) : Reading Unit := do
  word "break"
  if ← peek Trees.lifetime then
    lifetime
    guard !(← peek (Trees.op ":"))
  let starts ← peek fun trees => Trees.expression trees && (struct || !Trees.group .brace trees)
  if starts then discard (read (.expression struct))

/-- A test that binds names. -/
def letExpression (read : Phrases) (struct : Bool) : Reading Unit := do
  word "let"
  discard (alternatives read)
  op "="
  let left ← read (.operand struct)
  discard (operatorsPhrase read struct left .comparison)

/-- A branch on a condition, with further branches after it. -/
def ifExpression (read : Phrases) : Reading Unit :=
  loop (fun _ => do
    word "if"
    discard (read (.expression false))
    block read
    if !(← word? "else") then return none
    if ← peek (Trees.word "if") then return some ()
    block read
    return none) ()

def whileExpression (read : Phrases) : Reading Unit := do
  word "while"
  discard (read (.expression false))
  bracedStatements read

def forExpression (read : Phrases) : Reading Unit := do
  word "for"
  discard (alternatives read)
  word "in"
  discard (read (.expression false))
  bracedStatements read

def loopExpression (read : Phrases) : Reading Unit := do
  word "loop"
  bracedStatements read

/-- An arm of a match. One that does not end with a block needs a comma before the next. -/
def matchArm (read : Phrases) : Reading Unit := do
  outerAttributes read
  discard (alternatives read)
  if ← word? "if" then discard (read (.expression true))
  op "=>"
  let shape ← read .statementExpression
  if shape == .blockLike || (← atEnd) then discard (op? ",") else op ","

def matchExpression (read : Phrases) : Reading Unit := do
  word "match"
  discard (read (.expression false))
  inside .brace do
    innerAttributes read
    whileTrue (return !(← atEnd)) (matchArm read)

/-- A labelled loop or block. -/
def labelled (read : Phrases) : Reading Unit := do
  lifetime
  op ":"
  let trees := (← get).rest
  if Trees.word "while" trees then whileExpression read
  else if Trees.word "for" trees then forExpression read
  else if Trees.word "loop" trees then loopExpression read
  else bracedStatements read

/-- An operand without what follows it. -/
def atom (read : Phrases) (struct : Bool) : Reading Shape := do
  let trees := (← get).rest
  let second := Trees.next trees
  let third := Trees.next second
  if Trees.literal trees then
    literal
    return .plain
  else if Trees.word "async" trees &&
      (Trees.group .brace second || (Trees.word "move" second && Trees.group .brace third)) then
    copy
    discard (word? "move")
    block read
    return .plain
  else if Trees.word "try" trees && Trees.group .brace second then
    copy
    block read
    return .blockLike
  else if Trees.closure trees then
    closure read struct
    return .plain
  else if Trees.word "builtin" trees && Trees.op "#" second then
    copy
    op "#"
    ident
    guard (← peek (Trees.group .paren))
    copy
    return .plain
  else if Trees.pathName trees || Trees.op "::" trees || Trees.op "<" trees ||
      (Trees.word "try" trees && (Trees.op "!" second || Trees.op "::" second)) then
    pathExpression read struct
  else if Trees.group .paren trees then
    inside .paren (parenContent read)
    return .plain
  else if Trees.word "break" trees then
    breakExpression read struct
    return .plain
  else if Trees.word "continue" trees then
    copy
    if ← peek Trees.lifetime then lifetime
    return .plain
  else if Trees.anyOf ["return", "yield"] trees then
    copy
    jumpValue read true
    return .plain
  else if Trees.word "become" trees then
    copy
    discard (read (.expression true))
    return .plain
  else if Trees.group .bracket trees then
    inside .bracket (arrayContent read)
    return .plain
  else if Trees.word "let" trees then
    letExpression read struct
    return .plain
  else if Trees.word "if" trees then
    ifExpression read
    return .blockLike
  else if Trees.word "while" trees then
    whileExpression read
    return .blockLike
  else if Trees.word "for" trees then
    forExpression read
    return .blockLike
  else if Trees.word "loop" trees then
    loopExpression read
    return .blockLike
  else if Trees.word "match" trees then
    matchExpression read
    return .blockLike
  else if Trees.anyOf ["unsafe", "const"] trees then
    copy
    bracedStatements read
    return .blockLike
  else if Trees.group .brace trees then
    bracedStatements read
    return .blockLike
  else if Trees.op ".." trees then
    rangeEnd read struct
    return .range
  else if Trees.word "_" trees then
    copy
    return .plain
  else if Trees.lifetime trees then
    labelled read
    return .blockLike
  else failure

/-- A borrow, maybe a raw one. -/
def borrow (read : Phrases) (struct : Bool) : Reading Unit := do
  op "&"
  let raw ← peek fun trees =>
    Trees.word "raw" trees && Trees.anyOf ["mut", "const"] (Trees.next trees)
  if raw then
    copy
    copy
  else discard (word? "mut")
  discard (read (.operand struct))

/-- An operand of an operator. -/
def operandPhrase (read : Phrases) (struct : Bool) : Reading Shape := do
  let attributed ← peek (Trees.op "#")
  outerAttributes read
  let trees := (← get).rest
  if Trees.op "&" trees then
    borrow read struct
    return .plain
  match ["*", "!", "-"].find? (Trees.op · trees) with
  | some text =>
    op text
    discard (read (.operand struct))
    return .plain
  | none =>
    let shape ← trailers read (← atom read struct)
    guard !(attributed && shape == .range)
    return shape

/-- Whether trees begin with a block, a branch or a loop. -/
def Trees.blockLike (trees : List Tree) : Bool :=
  let second := Trees.next trees
  Trees.anyOf ["if", "while", "loop", "match", "unsafe"] trees ||
    (Trees.word "for" trees && !Trees.closureLifetimes trees) ||
    (Trees.anyOf ["try", "const"] trees && Trees.group .brace second) ||
    Trees.group .brace trees || Trees.lifetime trees

/-- An expression that ends where a block, a branch or a loop ends, if it begins with one, unless a member or the mark
that passes errors on follows. -/
def statementExpressionPhrase (read : Phrases) : Reading Shape := do
  outerAttributes read
  if ← peek Trees.blockLike then
    discard (atom read true)
    let goesOn ← peek fun trees => (Trees.op "." trees && !Trees.op ".." trees) || Trees.op "?" trees
    if !goesOn then return .blockLike
    let shape ← trailers read .plain
    operatorsPhrase read true shape .loosest
  else
    let shape ← read (.operand true)
    operatorsPhrase read true shape .loosest

end IsaForge.Code
