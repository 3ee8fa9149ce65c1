import IsaForge.Code.Tree
import IsaForge.Text.Blank
import IsaForge.Text.IdentifierChar

/-!
Reading token trees from text. `lex` skips blanks and comments, turns documentation comments into attributes, and refuses
a text with unbalanced brackets or with anything that is no token. Every scanner takes the characters in front of which it
stands and gives those that are left, or nothing if it does not apply.
-/

namespace IsaForge.Code

open Text (isIdentifierStart isIdentifierPart)

namespace Lexer

/-! ### Text in front -/

/-- What is left after the given characters, if the text begins with them. -/
def strip : List Char → List Char → Option (List Char)
  | [], cs => some cs
  | _ :: _, [] => none
  | a :: expected, c :: cs => if a = c then strip expected cs else none

/-- Whether the text begins with the given characters. -/
def begins (expected : String) (cs : List Char) : Bool :=
  (strip expected.toList cs).isSome

/-- The characters read between two places of a text. -/
def spelled (cs rest : List Char) : List Char :=
  cs.take (cs.length - rest.length)

/-! ### Comments -/

/-- The characters up to the end of the line, and what is left, beginning with the line feed. -/
def restOfLine : List Char → List Char × List Char
  | [] => ([], [])
  | '\r' :: '\n' :: rest => ([], '\n' :: rest)
  | '\n' :: rest => ([], '\n' :: rest)
  | c :: rest =>
    let (line, rest) := restOfLine rest
    (c :: line, rest)

/-- A comment in brackets, which nests, inside `depth` of them: its characters without the closing bracket, and what is
left after that. `read` holds the characters read so far in reverse. -/
def blockComment (depth : Nat) (read : List Char) : List Char → Option (List Char × List Char)
  | [] => none
  | '/' :: '*' :: rest => blockComment (depth + 1) ('*' :: '/' :: read) rest
  | '*' :: '/' :: rest =>
    if depth ≤ 1 then some (read.reverse, rest) else blockComment (depth - 1) ('/' :: '*' :: read) rest
  | c :: rest => blockComment depth (c :: read) rest

/-- Blanks of code: also the two marks for the direction of writing. -/
def isBlank (c : Char) : Bool :=
  Text.isBlank c || c == '\u200e' || c == '\u200f'

/-- A comment that is skipped: what is left after it. -/
def comment (cs : List Char) : Option (List Char) :=
  if begins "//" cs && (!begins "///" cs || begins "////" cs) && !begins "//!" cs then
    some (restOfLine cs).2
  else if begins "/**/" cs then some (cs.drop 4)
  else if begins "/*" cs && (!begins "/**" cs || begins "/***" cs) && !begins "/*!" cs then
    (blockComment 0 [] cs).map (·.2)
  else none

/-- Skip blanks and comments, at most `limit` of them. -/
def skip : Nat → List Char → List Char
  | 0, cs => cs
  | _ + 1, [] => []
  | limit + 1, c :: cs =>
    match comment (c :: cs) with
    | some rest => skip limit rest
    | none => if isBlank c then skip limit cs else c :: cs

/-- A documentation comment: its text, whether it is about what it stands in, and what is left after it. -/
def docComment (cs : List Char) : Option (List Char × Bool × List Char) :=
  if begins "//!" cs then
    let (line, rest) := restOfLine (cs.drop 3)
    some (line, true, rest)
  else if begins "/*!" cs then
    (blockComment 0 [] cs).map fun (text, rest) => (text.drop 3, true, rest)
  else if begins "///" cs && !begins "////" cs then
    let (line, rest) := restOfLine (cs.drop 3)
    some (line, false, rest)
  else if begins "/**" cs && !begins "/***" cs then
    (blockComment 0 [] cs).map fun (text, rest) => (text.drop 3, false, rest)
  else none

/-- Whether every carriage return of a text stands before a line feed. -/
def returnsPaired : List Char → Bool
  | [] => true
  | '\r' :: '\n' :: rest => returnsPaired rest
  | '\r' :: _ => false
  | _ :: rest => returnsPaired rest

/-- The attribute that a documentation comment stands for. -/
def docAttribute (text : List Char) (inner : Bool) : List Tree :=
  let content := [Tree.ident "doc", .punct '=' .alone, .string (String.ofList text)]
  .punct '#' .alone :: ((if inner then [.punct '!' .alone] else []) ++ [.group .bracket content])

/-! ### Identifiers -/

/-- An identifier without marker. -/
def plainIdent : List Char → Option (List Char)
  | [] => none
  | c :: rest => if isIdentifierStart c then some (rest.dropWhile isIdentifierPart) else none

/-- The words that cannot be marked as raw identifiers. -/
def neverRaw : List String := ["_", "super", "self", "Self", "crate"]

/-- An identifier, maybe with the marker of a raw one. -/
def anyIdent (cs : List Char) : Option (List Char) :=
  match strip ['r', '#'] cs with
  | none => plainIdent cs
  | some marked =>
    match plainIdent marked with
    | none => none
    | some rest => if neverRaw.contains (String.ofList (spelled marked rest)) then none else some rest

/-- An identifier where no literal can stand. -/
def ident (cs : List Char) : Option (List Char) :=
  if ["r\"", "r#\"", "r##", "b\"", "b'", "br\"", "br#", "c\"", "cr\"", "cr#"].any (begins · cs) then none
  else anyIdent cs

/-! ### Literals -/

def isHexDigit (c : Char) : Bool :=
  (Text.digitValue? 16 c).isSome

/-- A suffix after a literal, if there is one. -/
def suffix (cs : List Char) : List Char :=
  (plainIdent cs).getD cs

/-- The three kinds of quoted literals: of characters, of bytes, and of bytes that end with a null. -/
inductive Quoted where
  | chars
  | bytes
  | nullEnded
deriving DecidableEq, Repr

/-- Two digits of a character by its number, below 0x80. -/
def asciiEscape : List Char → Option (List Char)
  | a :: b :: rest => if '0' ≤ a && a ≤ '7' && isHexDigit b then some rest else none
  | _ => none

/-- Two digits of a byte by its number. -/
def byteEscape : List Char → Option (List Char)
  | a :: b :: rest => if isHexDigit a && isHexDigit b then some rest else none
  | _ => none

/-- Two digits of a byte by its number, which is not null. -/
def nonzeroEscape : List Char → Option (List Char)
  | a :: b :: rest => if isHexDigit a && isHexDigit b && !(a == '0' && b == '0') then some rest else none
  | _ => none

/-- The digits of a code point up to the closing brace: its number and what is left. -/
def codePointDigits (value count : Nat) : List Char → Option (Nat × List Char)
  | [] => none
  | c :: rest =>
    match Text.digitValue? 16 c with
    | some digit => if count = 6 then none else codePointDigits (16 * value + digit) (count + 1) rest
    | none =>
      if count = 0 then none
      else if c = '_' then codePointDigits value count rest
      else if c = '\x7d' then
        if value < 0xD800 || (0xDFFF < value && value < 0x110000) then some (value, rest) else none
      else none

/-- A code point in braces: its number and what is left. -/
def codePoint : List Char → Option (Nat × List Char)
  | '\x7b' :: rest => codePointDigits 0 0 rest
  | _ => none

/-- What is left after the blanks that a backslash at the end of a line skips, of which `returned` says that the last
one was a carriage return. -/
def continuation (returned : Bool) : List Char → Option (List Char)
  | [] => none
  | c :: rest =>
    if returned then
      if c = '\n' then continuation false rest else none
    else if c = ' ' || c = '\t' || c = '\n' then continuation false rest
    else if c = '\r' then continuation true rest
    else some (c :: rest)

/-- An escape after its backslash, in a literal of the given kind that may run over lines or not. -/
def escape (kind : Quoted) (lines : Bool) : List Char → Option (List Char)
  | [] => none
  | c :: rest =>
    if c = 'x' then
      match kind with
      | .chars => asciiEscape rest
      | .bytes => byteEscape rest
      | .nullEnded => nonzeroEscape rest
    else if ['n', 'r', 't', '\\', '\'', '"'].contains c then some rest
    else if c = '0' then
      match kind with
      | .nullEnded => none
      | .chars => some rest
      | .bytes => some rest
    else if c = 'u' then
      match kind with
      | .bytes => none
      | .chars => (codePoint rest).map (·.2)
      | .nullEnded => (codePoint rest).bind fun (value, rest) => if value = 0 then none else some rest
    else if lines && c = '\n' then continuation false rest
    else if lines && c = '\r' then continuation true rest
    else none

/-- Whether a quoted literal may hold a character as it is. -/
def isQuotable (kind : Quoted) (c : Char) : Bool :=
  match kind with
  | .chars => true
  | .bytes => c.toNat < 0x80
  | .nullEnded => c.toNat != 0

/-- A quoted literal after its opening quotation mark, of at most `limit` steps. -/
def cookedString (kind : Quoted) : Nat → List Char → Option (List Char)
  | 0, _ => none
  | _ + 1, [] => none
  | limit + 1, c :: rest =>
    if c = '"' then some (suffix rest)
    else if c = '\r' then
      match rest with
      | '\n' :: rest => cookedString kind limit rest
      | _ => none
    else if c = '\\' then
      match escape kind true rest with
      | some rest => cookedString kind limit rest
      | none => none
    else if isQuotable kind c then cookedString kind limit rest
    else none

/-- The marks in front of the opening quotation mark of a raw literal, and what is left after that. -/
def rawOpening (cs : List Char) : Option (List Char × List Char) :=
  let marks := cs.takeWhile (· == '#')
  match cs.drop marks.length with
  | '"' :: rest => if marks.length ≤ 255 then some (marks, rest) else none
  | _ => none

/-- A raw literal after its opening quotation mark. -/
def rawBody (kind : Quoted) (marks : List Char) : List Char → Option (List Char)
  | [] => none
  | '"' :: rest =>
    match strip marks rest with
    | some rest => some (suffix rest)
    | none => rawBody kind marks rest
  | '\r' :: '\n' :: rest => rawBody kind marks rest
  | '\r' :: _ => none
  | c :: rest => if isQuotable kind c then rawBody kind marks rest else none

/-- A string literal of the given kind, after the letters that mark the kind. -/
def stringLiteral (kind : Quoted) (cs : List Char) : Option (List Char) :=
  match cs with
  | '"' :: rest => cookedString kind (rest.length + 1) rest
  | 'r' :: rest => (rawOpening rest).bind fun (marks, rest) => rawBody kind marks rest
  | _ => none

/-- A character literal after its opening mark. -/
def charLiteral (kind : Quoted) (cs : List Char) : Option (List Char) :=
  let rest? := match cs with
    | [] => none
    | '\\' :: rest => escape kind false rest
    | c :: rest => if isQuotable kind c then some rest else none
  match rest? with
  | some ('\'' :: rest) => some (suffix rest)
  | _ => none

/-- The digits of a whole number, in the base that its marker names. -/
def digits (cs : List Char) : Option (List Char) :=
  let (base, cs) :=
    if begins "0x" cs then (16, cs.drop 2)
    else if begins "0o" cs then (8, cs.drop 2)
    else if begins "0b" cs then (2, cs.drop 2)
    else (10, cs)
  go base true cs
where
  /-- `empty` says that no digit was read yet. -/
  go (base : Nat) (empty : Bool) : List Char → Option (List Char)
    | [] => if empty then none else some []
    | c :: rest =>
      if c.isDigit then
        if (Text.digitValue? base c).isSome then go base false rest else none
      else if c = '_' then
        if empty && base = 10 then none else go base empty rest
      else if (Text.digitValue? (min base 16) c).isSome then go base false rest
      else if empty then none else some (c :: rest)

/-- The part of a number with a point or an exponent up to the exponent: whether it has a point, and what is left. A
point that a name or a second point follows is no part of the number, and then there is none. -/
def mantissa (point : Bool) : List Char → Option (Bool × List Char)
  | [] => some (point, [])
  | c :: rest =>
    if c.isDigit || c = '_' then mantissa point rest
    else if c = '.' then
      if point then some (point, c :: rest)
      else
        match rest.head? with
        | some next => if next = '.' || isIdentifierStart next then none else mantissa true rest
        | none => mantissa true rest
    else some (point, c :: rest)

/-- The sign and the digits of an exponent, if it has a digit. -/
def exponent (signed valued : Bool) : List Char → Option (List Char)
  | [] => if valued then some [] else none
  | c :: rest =>
    if c = '+' || c = '-' then
      if valued then some (c :: rest) else if signed then none else exponent true valued rest
    else if c.isDigit then exponent signed true rest
    else if c = '_' then exponent signed valued rest
    else if valued then some (c :: rest) else none

/-- A number with a point or an exponent, without its suffix. -/
def floatDigits : List Char → Option (List Char)
  | [] => none
  | c :: rest =>
    if !c.isDigit then none
    else
      match mantissa false rest with
      | none => none
      | some (point, rest) =>
        let plain := if point then some rest else none
        match rest with
        | 'e' :: after => (exponent false false after).or plain
        | 'E' :: after => (exponent false false after).or plain
        | _ => plain

/-- The end of a number: its suffix, after which no name may go on. -/
def numberEnd (rest : List Char) : Option (List Char) :=
  let rest := suffix rest
  match rest.head? with
  | some c => if isIdentifierPart c then none else some rest
  | none => some rest

/-- A literal. -/
def literal (cs : List Char) : Option (List Char) :=
  (stringLiteral .chars cs)
    |>.or ((strip ['b'] cs).bind (stringLiteral .bytes))
    |>.or ((strip ['c'] cs).bind (stringLiteral .nullEnded))
    |>.or ((strip ['b', '\''] cs).bind (charLiteral .bytes))
    |>.or ((strip ['\''] cs).bind (charLiteral .chars))
    |>.or ((floatDigits cs).bind numberEnd)
    |>.or ((digits cs).bind numberEnd)

/-! ### Punctuation -/

/-- A punctuation character; the beginning of a comment is none. -/
def punctChar (cs : List Char) : Option (Char × List Char) :=
  if begins "//" cs || begins "/*" cs then none
  else
    match cs with
    | c :: rest => if "~!@#$%^&*-=+|;:,<.>/?'".toList.contains c then some (c, rest) else none
    | [] => none

/-- A punctuation token. A single quotation mark begins the name of a lifetime. -/
def punct (cs : List Char) : Option (Tree × List Char) :=
  match punctChar cs with
  | none => none
  | some ('\'', rest) =>
    match anyIdent rest with
    | none => none
    | some after =>
      if after.head? = some '\'' || (after.head? = some '#' && !begins "r#" rest) then none
      else some (.punct '\'' .joint, rest)
  | some (c, rest) => some (.punct c (if (punctChar rest).isSome then .joint else .alone), rest)

/-- A token that is no bracket. -/
def leaf (cs : List Char) : Option (Tree × List Char) :=
  match literal cs with
  | some rest => some (.literal (String.ofList (spelled cs rest)), rest)
  | none =>
    match punct cs with
    | some result => some result
    | none =>
      match ident cs with
      | some rest => some (.ident (String.ofList (spelled cs rest)), rest)
      | none => none

/-! ### Brackets -/

def opening : Char → Option Delimiter
  | '(' => some .paren
  | '[' => some .bracket
  | '\x7b' => some .brace
  | _ => none

def closing : Char → Option Delimiter
  | ')' => some .paren
  | ']' => some .bracket
  | '\x7d' => some .brace
  | _ => none

/-- Read trees to the end of the text in at most `limit` steps. `trees` holds those read so far at this level in
reverse, and `outer` the open brackets with the trees read before them. -/
def run : Nat → List (Delimiter × List Tree) → List Tree → List Char → Option (List Tree)
  | 0, _, _, _ => none
  | limit + 1, outer, trees, cs =>
    let cs := skip (cs.length + 1) cs
    match docComment cs with
    | some (text, inner, rest) =>
      if returnsPaired text then run limit outer ((docAttribute text inner).reverse ++ trees) rest else none
    | none =>
      match cs with
      | [] => if outer.isEmpty then some trees.reverse else none
      | c :: rest =>
        match opening c, closing c with
        | some delimiter, _ => run limit ((delimiter, trees) :: outer) [] rest
        | none, some delimiter =>
          match outer with
          | [] => none
          | (opened, before) :: outer =>
            if opened = delimiter then run limit outer (.group delimiter trees.reverse :: before) rest else none
        | none, none =>
          match leaf cs with
          | some (tree, rest) => run limit outer (tree :: trees) rest
          | none => none

end Lexer

/-- The token trees of a text. A byte order mark at the beginning is dropped. -/
def lex (text : String) : Option (List Tree) :=
  let cs := match text.toList with
    | '\ufeff' :: rest => rest
    | cs => cs
  Lexer.run (cs.length + 1) [] [] cs

end IsaForge.Code
