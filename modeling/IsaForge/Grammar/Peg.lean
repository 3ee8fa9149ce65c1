/-!
Parsing expression grammars with typed results. A `Peg ρ α` describes how to read an `α` from the front of a text;
`ρ` names its rules. `Peg.parse` reads: choice is ordered, repetition is greedy, and nothing is given back once read.
A rule says how blanks between its items are treated. `Peg.trace` follows a failed reading and collects, at the furthest
position reached, the rules that were expected there.
-/

namespace IsaForge.Grammar

/-- How a rule treats spaces and tabs between its items: a `spaced` rule leaves the treatment of its caller in place,
which skips them at the outset; inside a `joined` or `sealed` rule nothing is skipped, and the rules called from a
`sealed` rule are never reported as expected. -/
inductive RuleKind where
  | spaced
  | joined
  | sealed
deriving DecidableEq, Repr

/-- Spaces and tabs are the characters that may separate the items of a spaced rule. -/
def isGap (c : Char) : Bool :=
  c == ' ' || c == '\t'

namespace RuleKind

/-- The treatment in force inside a rule of kind `callee` that is called where `caller` is in force. -/
def enter (caller callee : RuleKind) : RuleKind :=
  match callee with
  | .spaced => caller
  | .joined => .joined
  | .sealed => .sealed

/-- Skip the gap in front of an item. -/
def skip (mode : RuleKind) (cs : List Char) : List Char :=
  match mode with
  | .spaced => cs.dropWhile isGap
  | .joined => cs
  | .sealed => cs

end RuleKind

/-- A grammar that reads a value of type `α` and whose rules are named by `ρ`. -/
inductive Peg (ρ : Type) : Type → Type 1 where
  /-- Reads nothing: the place before the first item. -/
  | start : Peg ρ Unit
  /-- One character of a class. -/
  | char (accepts : Char → Bool) : Peg ρ Char
  /-- One item after the other, with a gap in between. -/
  | seq {α β : Type} (first : Peg ρ α) (second : Peg ρ β) : Peg ρ (α × β)
  /-- The first of two alternatives that can be read. -/
  | choice {α : Type} (first second : Peg ρ α) : Peg ρ α
  /-- An item or nothing. -/
  | optional {α : Type} (item : Peg ρ α) : Peg ρ (Option α)
  /-- As many items as can be read, with gaps in between. -/
  | many {α : Type} (item : Peg ρ α) : Peg ρ (List α)
  /-- Reads nothing, and only where the item cannot be read. -/
  | absent {α : Type} (item : Peg ρ α) : Peg ρ Unit
  /-- A named rule. -/
  | rule {α : Type} (name : ρ) (kind : RuleKind) (body : Peg ρ α) : Peg ρ α
  /-- Turns what was read into another value. -/
  | map {α β : Type} (f : α → β) (item : Peg ρ α) : Peg ρ β

namespace Peg

variable {ρ α β : Type}

/-- Read with `step` until it fails, at most `limit` times. -/
def iterate (step : List Char → Option (α × List Char)) : Nat → List Char → List α × List Char
  | 0, cs => ([], cs)
  | limit + 1, cs =>
    match step cs with
    | none => ([], cs)
    | some (x, rest) =>
      let (xs, rest) := iterate step limit rest
      (x :: xs, rest)

/-- Read a value from the front of a text, giving also what is left. An item of a repetition reads at least one
character, so the number of characters left bounds how often it is read. -/
def parse : {α : Type} → Peg ρ α → RuleKind → List Char → Option (α × List Char)
  | _, .start, _, cs => some ((), cs)
  | _, .char accepts, _, cs =>
    match cs with
    | [] => none
    | c :: rest => if accepts c then some (c, rest) else none
  | _, .seq first second, mode, cs =>
    match first.parse mode cs with
    | none => none
    | some (x, rest) =>
      match second.parse mode (mode.skip rest) with
      | none => none
      | some (y, rest) => some ((x, y), rest)
  | _, .choice first second, mode, cs =>
    match first.parse mode cs with
    | some result => some result
    | none => second.parse mode cs
  | _, .optional item, mode, cs =>
    match item.parse mode cs with
    | some (x, rest) => some (some x, rest)
    | none => some (none, cs)
  | _, .many item, mode, cs =>
    match item.parse mode cs with
    | none => some ([], cs)
    | some (x, rest) =>
      let (xs, rest) := iterate (fun cs => item.parse mode (mode.skip cs)) rest.length rest
      some (x :: xs, rest)
  | _, .absent item, mode, cs =>
    match item.parse mode cs with
    | some _ => none
    | none => some ((), cs)
  | _, .rule _ kind body, mode, cs => body.parse (mode.enter kind) cs
  | _, .map f item, mode, cs =>
    match item.parse mode cs with
    | some (x, rest) => some (f x, rest)
    | none => none

theorem parse_start (mode : RuleKind) (cs : List Char) : (start : Peg ρ Unit).parse mode cs = some ((), cs) := by
  rw [parse]

/-- Read a whole text, from its first character on. What is left over is for the grammar to exclude. -/
def read (g : Peg ρ α) (cs : List Char) : Option α :=
  (g.parse .spaced cs).map (·.1)

/-! ### Building grammars -/

/-- The given character. -/
def exactly (c : Char) : Peg ρ Char :=
  .char (· == c)

/-- Two items of which the second gives the value. -/
def before (first : Peg ρ α) (second : Peg ρ β) : Peg ρ β :=
  .map (·.2) (.seq first second)

/-- Two items of which the first gives the value. -/
def after (first : Peg ρ α) (second : Peg ρ β) : Peg ρ α :=
  .map (·.1) (.seq first second)

/-- One item and any number of further ones. -/
def several (item : Peg ρ α) : Peg ρ (List α) :=
  .map (fun (x, xs) => x :: xs) (.seq item (.many item))

/-- The end of the text, as a rule of its own. -/
def finish (name : ρ) : Peg ρ Unit :=
  .rule name .spaced (.absent (.char fun _ => true))

end Peg

/-! ### What was expected -/

/-- The rules tried at the furthest position of a failed reading: those expected there, and those that were excluded
there but could be read. -/
structure Attempts (ρ : Type) where
  position : Nat := 0
  expected : List ρ := []
  excluded : List ρ := []

namespace Attempts

variable {ρ : Type}

/-- How many rules are recorded at `position`. -/
def countAt (attempts : Attempts ρ) (position : Nat) : Nat :=
  if attempts.position = position then attempts.expected.length + attempts.excluded.length else 0

/-- Record that `rule`, called at `position` when `before` was the record, did not go as its caller wanted. A single
rule recorded below it says more than `rule` does and stays; several are replaced by `rule`. -/
def record (before after : Attempts ρ) (rule : ρ) (position : Nat) (excluding : Bool) : Attempts ρ :=
  if after.countAt position - before.countAt position = 1 then after
  else if position < after.position then after
  else
    let keep : List ρ × List ρ :=
      if position = after.position then
        if position = before.position then
          (after.expected.take before.expected.length, after.excluded.take before.excluded.length)
        else ([], [])
      else ([], [])
    if excluding then ⟨position, keep.1, keep.2 ++ [rule]⟩
    else ⟨position, keep.1 ++ [rule], keep.2⟩

end Attempts

namespace Peg

variable {ρ α β : Type}

/-- Repeat `trace` while `step` reads on, at most `limit` times. -/
def traceLoop (step : List Char → Option (List Char)) (trace : List Char → Attempts ρ → Attempts ρ) :
    Nat → List Char → Attempts ρ → Attempts ρ
  | 0, _, attempts => attempts
  | limit + 1, cs, attempts =>
    let attempts := trace cs attempts
    match step cs with
    | none => attempts
    | some rest => traceLoop step trace limit rest attempts

/-- Follow the reading of `cs`, the last characters of a text of `total` ones, and add to the record the rules that
failed; inside an odd number of exclusions, those that could be read. -/
def trace (total : Nat) :
    {α : Type} → Peg ρ α → RuleKind → Bool → List Char → Attempts ρ → Attempts ρ
  | _, .start, _, _, _, attempts => attempts
  | _, .char _, _, _, _, attempts => attempts
  | _, .seq first second, mode, excluding, cs, attempts =>
    let attempts := first.trace total mode excluding cs attempts
    match first.parse mode cs with
    | none => attempts
    | some (_, rest) => second.trace total mode excluding (mode.skip rest) attempts
  | _, .choice first second, mode, excluding, cs, attempts =>
    let attempts := first.trace total mode excluding cs attempts
    match first.parse mode cs with
    | none => second.trace total mode excluding cs attempts
    | some _ => attempts
  | _, .optional item, mode, excluding, cs, attempts => item.trace total mode excluding cs attempts
  | _, .many item, mode, excluding, cs, attempts =>
    let attempts := item.trace total mode excluding cs attempts
    match item.parse mode cs with
    | none => attempts
    | some (_, rest) =>
      traceLoop (fun cs => (item.parse mode (mode.skip cs)).map (·.2))
        (fun cs attempts => item.trace total mode excluding (mode.skip cs) attempts)
        (rest.length + 1) rest attempts
  | _, .absent item, mode, excluding, cs, attempts => item.trace total mode (!excluding) cs attempts
  | _, .rule name kind body, mode, excluding, cs, attempts =>
    let after := body.trace total (mode.enter kind) excluding cs attempts
    let failed := (body.parse (mode.enter kind) cs).isNone
    if mode = .sealed || failed == excluding then after
    else attempts.record after name (total - cs.length) excluding
  | _, .map _ item, mode, excluding, cs, attempts => item.trace total mode excluding cs attempts

theorem trace_map (f : α → β) (item : Peg ρ α) (total : Nat) (mode : RuleKind) (excluding : Bool) (cs : List Char)
    (attempts : Attempts ρ) :
    (map f item).trace total mode excluding cs attempts = item.trace total mode excluding cs attempts := by
  rw [trace]

/-- The record of a reading of a whole text. -/
def attempts (g : Peg ρ α) (cs : List Char) : Attempts ρ :=
  g.trace cs.length .spaced false cs {}

end Peg

/-- The column after `column` and the given characters; a line end starts over. -/
def columnFrom (column : Nat) : List Char → Nat
  | [] => column
  | '\r' :: '\n' :: rest => columnFrom 1 rest
  | '\n' :: rest => columnFrom 1 rest
  | _ :: rest => columnFrom (column + 1) rest

end IsaForge.Grammar
