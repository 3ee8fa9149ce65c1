import IsaForge.Code.Tree

/-!
Reading phrases of code from token trees. A `Reading` consumes trees and writes down what it read with the spacing that
the grammar gives it: the characters of an operator are joint, and nothing else is. The phrases of the grammar refer to
each other through `Phrases`, which says how each one is read; the productions themselves do not recur.
-/

namespace IsaForge.Code

/-- What a phrase was read as, as far as what may follow depends on it. -/
inductive Shape where
  | plain
  /-- An expression that ends a statement: a block, a branch or a loop. -/
  | blockLike
  | range
  | comparison
  | macroCall (braced : Bool)
  /-- A type that is one name, maybe with arguments. -/
  | typeName
  /-- A type that is any other path. -/
  | typePath
  | typeParen
  /-- A trait object without marker and with one bound only. -/
  | loneBound
  /-- A bound that names no trait. -/
  | noTrait
  /-- A pattern for any number of elements. -/
  | patternRest
  /-- A range pattern without one of its ends. -/
  | openRange
  /-- The parameter that stands for the receiver of a method. -/
  | receiver
deriving DecidableEq, Repr

/-- How tightly an operator binds, the loosest first. -/
inductive Precedence where
  | loosest
  | assign
  | range
  | disjunction
  | conjunction
  | binding
  | comparison
  | bitOr
  | bitXor
  | bitAnd
  | shift
  | sum
  | product
  | cast
deriving DecidableEq, Repr

def Precedence.level : Precedence → Nat
  | .loosest => 0
  | .assign => 1
  | .range => 2
  | .disjunction => 3
  | .conjunction => 4
  | .binding => 5
  | .comparison => 6
  | .bitOr => 7
  | .bitXor => 8
  | .bitAnd => 9
  | .shift => 10
  | .sum => 11
  | .product => 12
  | .cast => 13

/-- The phrases that the productions of the grammar refer to. -/
inductive Phrase where
  /-- A type; `plus` says whether bounds may be added to it. -/
  | type (plus : Bool)
  /-- A bound on a type; `captures` and `constant` say whether it may name captured parameters or be constant. -/
  | bound (captures constant : Bool)
  /-- An expression; `struct` says whether it may end with the braces of a structure. -/
  | expression (struct : Bool)
  /-- An operand of an operator. -/
  | operand (struct : Bool)
  /-- The operators that bind at least as tightly as `least`, after an operand of shape `left`. -/
  | operators (struct : Bool) (left : Shape) (least : Precedence)
  /-- An expression that ends where a block, a branch or a loop ends, if it begins with one. -/
  | statementExpression
  /-- A pattern without alternatives. -/
  | pattern
  /-- Statements up to the end of their block. -/
  | statements
  | item
  | useTree (rooted : Bool)
deriving DecidableEq, Repr

/-- What is still to be read, and what was read so far, the latest first. -/
structure Cursor where
  rest : List Tree
  done : List Tree := []

/-- Reading that may fail. -/
abbrev Reading (α : Type) := StateT Cursor Option α

/-- How each phrase is read. -/
abbrev Phrases := Phrase → Reading Shape

namespace Trees

/-! ### Looking ahead -/

/-- Whether trees begin with an operator: its characters one after the other, all but the last joint. -/
def startsWithOp : List Char → List Tree → Bool
  | [], _ => true
  | [c], .punct d _ :: _ => c == d
  | c :: more, .punct d .joint :: rest => c == d && startsWithOp more rest
  | _, _ => false

/-- Whether trees begin with the given operator. -/
def op (text : String) (trees : List Tree) : Bool :=
  startsWithOp text.toList trees

/-- Whether trees begin with the given word. -/
def word (name : String) : List Tree → Bool
  | .ident found :: _ => found == name
  | _ => false

/-- The words that are no identifiers. -/
def keywords : List String :=
  ["_", "abstract", "as", "async", "await", "become", "box", "break", "const", "continue", "crate", "do", "dyn", "else",
    "enum", "extern", "false", "final", "fn", "for", "if", "impl", "in", "let", "loop", "macro", "match", "mod", "move",
    "mut", "override", "priv", "pub", "ref", "return", "Self", "self", "static", "struct", "super", "trait", "true",
    "try", "type", "typeof", "unsafe", "unsized", "use", "virtual", "where", "while", "yield"]

/-- Whether trees begin with an identifier. -/
def ident : List Tree → Bool
  | .ident found :: _ => !keywords.contains found
  | _ => false

/-- Whether trees begin with any word. -/
def anyWord : List Tree → Bool
  | .ident _ :: _ => true
  | _ => false

/-- Whether trees begin with the name of a lifetime. -/
def lifetime : List Tree → Bool
  | .punct '\'' .joint :: .ident _ :: _ => true
  | _ => false

def group (delimiter : Delimiter) : List Tree → Bool
  | .group found _ :: _ => found == delimiter
  | _ => false

/-- Whether the text of a literal is a number. -/
def isNumber (text : String) : Bool :=
  match text.toList.head? with
  | some c => c.isDigit
  | none => false

/-- Whether trees begin with a literal; the two truth values and a negative number are literals too. -/
def literal : List Tree → Bool
  | .literal _ :: _ => true
  | .ident found :: _ => found == "true" || found == "false"
  | .punct '-' _ :: .literal text :: _ => isNumber text
  | _ => false

/-- The trees after the first token, where a lifetime counts as one. -/
def next : List Tree → List Tree
  | [] => []
  | .punct '\'' .joint :: .ident _ :: rest => rest
  | _ :: rest => rest

/-- Whether trees begin with one of the given words. -/
def anyOf (names : List String) (trees : List Tree) : Bool :=
  names.any (word · trees)

end Trees

namespace Reading

variable {α σ : Type}

/-- Whether what is still to be read satisfies a test. -/
def peek (test : List Tree → Bool) : Reading Bool := do
  return test (← get).rest

/-- Whether everything was read. -/
def atEnd : Reading Bool :=
  peek List.isEmpty

/-- Write a tree down. -/
def emit (tree : Tree) : Reading Unit :=
  modify fun cursor => { cursor with done := tree :: cursor.done }

/-- Read one tree of any kind, without writing it down. -/
def take : Reading Tree := do
  match (← get).rest with
  | [] => failure
  | tree :: rest =>
    modify fun cursor => { cursor with rest }
    return tree

/-- Read one tree of any kind as it is. -/
def copy : Reading Unit := do
  emit (← take)

/-- Read the given number of trees and write their characters down as one operator. -/
def operator : List Char → Reading Unit
  | [] => return
  | [c] => do
    discard take
    emit (.punct c .alone)
  | c :: more => do
    discard take
    emit (.punct c .joint)
    operator more

/-- Read an operator. -/
def op (text : String) : Reading Unit := do
  guard (← peek (Trees.op text))
  operator text.toList

/-- Read an operator if it is there. -/
def op? (text : String) : Reading Bool := do
  if ← peek (Trees.op text) then
    operator text.toList
    return true
  return false

/-- Read a word. -/
def word (name : String) : Reading Unit := do
  guard (← peek (Trees.word name))
  copy

/-- Read a word if it is there. -/
def word? (name : String) : Reading Bool := do
  if ← peek (Trees.word name) then
    copy
    return true
  return false

def ident : Reading Unit := do
  guard (← peek Trees.ident)
  copy

def anyWord : Reading Unit := do
  guard (← peek Trees.anyWord)
  copy

def lifetime : Reading Unit := do
  guard (← peek Trees.lifetime)
  copy
  copy

/-- Read a literal. -/
def literal : Reading Unit := do
  guard (← peek Trees.literal)
  if ← peek (Trees.op "-") then
    op "-"
  copy

/-- Read a whole group whose content is a phrase of its own. -/
def inside (delimiter : Delimiter) (content : Reading α) : Reading α := do
  match ← take with
  | .group found inner =>
    guard (found == delimiter)
    match content ⟨inner, []⟩ with
    | some (value, ⟨[], done⟩) =>
      emit (.group delimiter done.reverse)
      return value
    | _ => failure
  | _ => failure

/-- Read a group of any kind as it is, and give its kind. -/
def anyGroup : Reading Delimiter := do
  match ← take with
  | .group delimiter inner =>
    emit (.group delimiter inner)
    return delimiter
  | _ => failure

/-- Take steps from `state` as long as they lead on, at most `limit` of them. -/
def steps (step : σ → Reading (Option σ)) : Nat → σ → Reading σ
  | 0, _ => failure
  | limit + 1, state => do
    match ← step state with
    | none => return state
    | some state => steps step limit state

/-- Take steps from `state` as long as they lead on. Every step but the last reads a tree. -/
def loop (step : σ → Reading (Option σ)) (state : σ) : Reading σ := do
  steps step ((← get).rest.length + 2) state

/-- Do something as often as a test holds. -/
def whileTrue (test : Reading Bool) (body : Reading Unit) : Reading Unit :=
  loop (fun _ => do if ← test then body; return some () else return none) ()

/-- Items with separators in between up to the end of the input; the last separator may stand at the end. -/
def separatedToEnd (separator : String) (item : Reading Unit) : Reading Unit :=
  loop (fun _ => do
    if ← atEnd then return none
    item
    if ← atEnd then return none
    op separator
    return some ()) ()

/-- Try to read; if that fails nothing is read. -/
def attempt (reading : Reading α) : Reading (Option α) := fun cursor =>
  match reading cursor with
  | some (value, cursor) => some (some value, cursor)
  | none => some (none, cursor)

/-- Whether the input begins with what a reading reads. -/
def ahead (reading : Reading Bool) : Reading Bool := fun cursor =>
  match reading cursor with
  | some (value, _) => some (value, cursor)
  | none => some (false, cursor)

/-- The trees that a reading writes down, kept apart. -/
def apart (reading : Reading α) : Reading (α × List Tree) := do
  let before := (← get).done
  modify fun cursor => { cursor with done := [] }
  let value ← reading
  let written := (← get).done
  modify fun cursor => { cursor with done := before }
  return (value, written.reverse)

/-- Write trees down. -/
def emitAll (trees : List Tree) : Reading Unit :=
  modify fun cursor => { cursor with done := trees.reverse ++ cursor.done }

/-- Whether the token written down last is a group in braces. -/
def endsWithBraces : Reading Bool := do
  match (← get).done with
  | .group .brace _ :: _ => return true
  | _ => return false

end Reading

end IsaForge.Code
