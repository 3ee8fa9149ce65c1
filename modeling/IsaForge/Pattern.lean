import IsaForge.Grammar.Rule

/-!
Bit patterns: the bits of an instruction word from the most significant one down, as fixed bits, bits that do not matter,
slices of an immediate, and named fields. `Pattern.parse` reads the tokens of a pattern and `PatternToken.text` writes one.
Numbers stay as written until a layout gives them a meaning.
-/

namespace IsaForge

open Grammar (Peg Rule)

/-- A slice of an immediate: the bits `hi` down to `lo`, or the one bit `hi`. -/
structure Component where
  hi : String
  lo? : Option String := none
deriving DecidableEq, Repr

/-- A component as written. -/
def Component.text (component : Component) : String :=
  match component.lo? with
  | none => component.hi
  | some lo => component.hi ++ ":" ++ lo

/-- A token of a bit pattern. -/
inductive PatternToken where
  /-- Fixed bits, the most significant one first. -/
  | literal (bits : List Bool)
  /-- A number of bits that do not matter. -/
  | filler (count : Nat)
  /-- Slices of an immediate, the uppermost one first; `signed` says that its sign is extended. -/
  | immediate (signed : Bool) (lead : Component) (others : List Component)
  /-- A named field of the given width. -/
  | field (name width : String)
deriving DecidableEq, Repr

/-- A token as written. -/
def PatternToken.text : PatternToken → String
  | .literal bits => String.ofList (bits.map fun bit => if bit then '1' else '0')
  | .filler count => String.ofList (List.replicate count '.')
  | .immediate signed lead others =>
    "\x7b" ++ (if signed then "-" else "") ++ String.intercalate "|" ((lead :: others).map Component.text) ++ "\x7d"
  | .field name width => name ++ "[" ++ width ++ "]"

namespace Pattern

/-- A run of fixed bits. -/
def literalBits : Peg Rule PatternToken :=
  .rule .literalBits .sealed
    (.map (fun cs => .literal (cs.map (· == '1'))) (.several (.char fun c => c == '0' || c == '1')))

/-- A run of bits that do not matter. -/
def filler : Peg Rule PatternToken :=
  .rule .filler .sealed (.map (fun cs => .filler cs.length) (.several (.exactly '.')))

/-- The mark of a signed immediate. -/
def sign : Peg Rule Char :=
  .rule .sign .spaced (.exactly '-')

/-- One slice of an immediate. -/
def component : Peg Rule Component :=
  .rule .component .joined
    (.map (fun (hi, lo?) => ⟨hi, lo?⟩)
      (.seq Grammar.number (.optional (.before (.exactly ':') Grammar.number))))

/-- An immediate in braces. -/
def immediate : Peg Rule PatternToken :=
  .rule .immediate .joined
    (.map (fun (sign?, lead, others) => .immediate sign?.isSome lead others)
      (.before (.exactly '\x7b')
        (.seq (.optional sign)
          (.seq component
            (.after (.many (.before (.exactly '|') component)) (.exactly '\x7d'))))))

/-- A named field and its width. -/
def namedField : Peg Rule PatternToken :=
  .rule .namedField .joined
    (.map (fun (name, width) => .field name width)
      (.seq Grammar.identifier (.before (.exactly '[') (.after Grammar.number (.exactly ']')))))

/-- A whole bit pattern. -/
def tokens : Peg Rule (List PatternToken) :=
  .rule .pattern .spaced
    (.before .start
      (.after
        (.several (.choice literalBits (.choice filler (.choice immediate namedField))))
        Grammar.finish))

/-- Read the tokens of a bit pattern. -/
def parse (text : String) : Except Grammar.Failure (List PatternToken) :=
  Grammar.readAll tokens text.toList

end Pattern

end IsaForge
