import IsaForge.Code.Lexer
import IsaForge.Code.Phrase.Statement

/-!
The grammar of code, put together: which production reads which phrase. `isBlock` says whether trees are the statements of
a block, and `readType?` reads a type and gives its trees with the spacing of the grammar.
-/

namespace IsaForge.Code

/-- The production of a phrase. -/
def production (read : Phrases) : Phrase → Reading Shape
  | .type plus => typePhrase read plus
  | .bound captures constant => boundPhrase read captures constant
  | .expression struct => expressionPhrase read struct
  | .operand struct => operandPhrase read struct
  | .operators struct left least => operatorsPhrase read struct left least
  | .statementExpression => statementExpressionPhrase read
  | .pattern => patternPhrase read
  | .statements => statementsPhrase read
  | .item => itemPhrase read
  | .useTree rooted => useTreePhrase read rooted

/-- Read a phrase whose derivation is at most `depth` phrases deep. -/
def readPhrase : Nat → Phrases
  | 0, _ => failure
  | depth + 1, phrase => production (readPhrase depth) phrase

/-- A bound on the depth of derivations: between two phrases that read a token there are few that read none. -/
def derivationDepth (trees : List Tree) : Nat :=
  16 * (sizeAll trees + 1)

/-- Read a whole phrase, and give its trees with the spacing of the grammar. -/
def readWhole? (phrase : Phrase) (trees : List Tree) : Option (List Tree) :=
  match readPhrase (derivationDepth trees) phrase ⟨trees, []⟩ with
  | some (_, ⟨[], done⟩) => some done.reverse
  | _ => none

/-- Whether trees are the statements of a block. -/
def isBlock (trees : List Tree) : Bool :=
  (readWhole? .statements trees).isSome

/-- The type that a text holds. -/
def readType? (text : String) : Option (List Tree) :=
  (lex text).bind (readWhole? (.type true))

end IsaForge.Code
