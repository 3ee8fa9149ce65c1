import IsaForge.Decoder
import IsaForge.Disassembler
import IsaForge.Proofs.Digits
import IsaForge.Proofs.Reading

/-!
What the code of a disassembled instruction means. A string literal is read back by `Code.literalText?`, a format text
shows its arguments by `formatChars`, and `Disassembly.textOf?` puts the two together into the value of a piece of code.
`Disassembly.textOf?_trees` says what the code of a `Disassembly` comes to, given what its format text shows.
-/

namespace IsaForge

/-! ### String literals -/

namespace Code

/-- How far the next character of a string literal has been read. -/
inductive LiteralState where
  | plain
  /-- Behind a backslash. -/
  | escaped
  /-- In the braces of a code point. -/
  | code (value : Nat)

/-- The character for which a character behind a backslash stands. -/
def simpleEscape? : Char → Option Char
  | '0' => some '\x00'
  | 't' => some '\t'
  | 'n' => some '\n'
  | 'r' => some '\r'
  | '"' => some '"'
  | '\'' => some '\''
  | '\\' => some '\\'
  | _ => none

/-- The characters up to the quote that ends a string literal. -/
def readQuoted : LiteralState → List Char → Option (List Char)
  | _, [] => none
  | .plain, c :: rest =>
    if c = '"' then if rest.isEmpty then some [] else none
    else if c = '\\' then readQuoted .escaped rest
    else (readQuoted .plain rest).map (c :: ·)
  | .escaped, 'u' :: '\x7b' :: rest => readQuoted (.code 0) rest
  | .escaped, 'x' :: high :: low :: rest =>
    match Text.readDigits 16 0 [high, low] with
    | some value => if value < 128 then (readQuoted .plain rest).map (Char.ofNat value :: ·) else none
    | none => none
  | .escaped, c :: rest =>
    match simpleEscape? c with
    | some shown => (readQuoted .plain rest).map (shown :: ·)
    | none => none
  | .code value, c :: rest =>
    if c = '\x7d' then
      if value.isValidChar then (readQuoted .plain rest).map (Char.ofNat value :: ·) else none
    else
      match Text.digitValue? 16 c with
      | some digit => readQuoted (.code (value * 16 + digit)) rest
      | none => none

/-- The text of a string literal. -/
def literalText? (written : String) : Option String :=
  match written.toList with
  | '"' :: rest => (readQuoted .plain rest).map String.ofList
  | _ => none

theorem readQuoted_self {c : Char} (hquote : c ≠ '"') (hbackslash : c ≠ '\\') (rest : List Char) :
    readQuoted .plain (c :: rest) = (readQuoted .plain rest).map (c :: ·) := by
  rw [readQuoted, if_neg hquote, if_neg hbackslash]

theorem readQuoted_code {value value' : Nat} {digits : List Char}
    (h : Text.readDigits 16 value digits = some value') (rest : List Char) :
    readQuoted (.code value) (digits ++ rest) = readQuoted (.code value') rest := by
  induction digits generalizing value with
  | nil =>
    cases h
    rfl
  | cons c digits ih =>
    rw [Text.readDigits] at h
    split at h
    · next digit hdigit =>
      have hbrace : c ≠ '\x7d' := by
        rintro rfl
        cases hdigit
      rw [List.cons_append, readQuoted, if_neg hbrace, hdigit]
      exact ih h
    · cases h

/-- Each character is read back. -/
theorem readQuoted_escapeChar (c : Char) (next? : Option Char) (rest : List Char) :
    readQuoted .plain (escapeChar c next? ++ rest) = (readQuoted .plain rest).map (c :: ·) := by
  unfold escapeChar
  split
  · next h =>
    subst h
    split
    · split <;> rfl
    · rfl
  split
  · next h => subst h; rfl
  split
  · next h => subst h; rfl
  split
  · next h => subst h; rfl
  split
  · next h => subst h; rfl
  split
  · next h => subst h; rfl
  next hquote hbackslash =>
  split
  · exact readQuoted_self hquote hbackslash rest
  · have hvalid : c.toNat.isValidChar := c.valid
    have hdigits := readQuoted_code (Text.readDigits_toDigits c.toNat) ('\x7d' :: rest)
    rw [List.append_assoc, List.append_assoc]
    show readQuoted (.code 0) (Nat.toDigits 16 c.toNat ++ '\x7d' :: rest) = _
    rw [hdigits, readQuoted, if_pos rfl, if_pos hvalid, Char.ofNat_toNat]

theorem readQuoted_escapeChars (cs : List Char) :
    readQuoted .plain (escapeChars cs ++ ['"']) = some cs := by
  induction cs with
  | nil => rfl
  | cons c cs ih =>
    rw [escapeChars, List.append_assoc, readQuoted_escapeChar, ih]
    rfl

theorem literalText?_string (text : String) :
    literalText? ("\"" ++ String.ofList (escapeChars text.toList) ++ "\"") = some text := by
  have hwritten : ("\"" ++ String.ofList (escapeChars text.toList) ++ "\"").toList =
      '"' :: (escapeChars text.toList ++ ['"']) := by simp
  rw [literalText?, hwritten]
  show (readQuoted .plain (escapeChars text.toList ++ ['"'])).map String.ofList = some text
  rw [readQuoted_escapeChars, Option.map_some, String.ofList_toList]

end Code

/-! ### Format texts -/

/-- A value that a format text can show. -/
inductive FormatValue where
  | text (text : String)
  | signed (value : BitVec 64)
  | unsigned (value : BitVec 32)

namespace FormatValue

/-- A value as it is shown without more ado. -/
def plain : FormatValue → String
  | .text shown => shown
  | .signed value => Text.signedDecimal value.toInt
  | .unsigned value => Text.decimal value.toNat

/-- A number in hexadecimal with its marker. -/
def hex? : FormatValue → Option String
  | .text _ => none
  | .signed value => some (Text.hexadecimal value.toNat 1)
  | .unsigned value => some (Text.hexadecimal value.toNat 1)

end FormatValue

/-- What a format text shows. Doubled braces show as single ones; each mark shows the next value, and no value may be
left. -/
def formatChars : List Char → List FormatValue → Option (List Char)
  | [], [] => some []
  | [], _ :: _ => none
  | '\x7b' :: '\x7b' :: rest, values => (formatChars rest values).map ('\x7b' :: ·)
  | '\x7d' :: '\x7d' :: rest, values => (formatChars rest values).map ('\x7d' :: ·)
  | '\x7b' :: '\x7d' :: rest, value :: values => (formatChars rest values).map (value.plain.toList ++ ·)
  | '\x7b' :: ':' :: '#' :: 'x' :: '\x7d' :: rest, value :: values =>
    match value.hex? with
    | some shown => (formatChars rest values).map (shown.toList ++ ·)
    | none => none
  | c :: rest, values =>
    if c = '\x7b' || c = '\x7d' then none else (formatChars rest values).map (c :: ·)

namespace Template

theorem double_cons (c d : Char) (cs : List Char) :
    double c (d :: cs) = (if d = c then [c, c] else [d]) ++ double c cs :=
  List.flatMap_cons

theorem double_append (c : Char) (cs ds : List Char) : double c (cs ++ ds) = double c cs ++ double c ds :=
  List.flatMap_append

/-- The characters of an escaped text, one after the other. -/
theorem double_double_cons (c : Char) (cs : List Char) :
    double '\x7d' (double '\x7b' (c :: cs)) =
      (if c = '\x7b' || c = '\x7d' then [c, c] else [c]) ++ double '\x7d' (double '\x7b' cs) := by
  rw [double_cons, double_append]
  by_cases hopen : c = '\x7b'
  · subst hopen
    rfl
  · by_cases hclose : c = '\x7d'
    · subst hclose
      rfl
    · rw [if_neg hopen, if_neg (by simp [hopen, hclose]), double_cons, if_neg hclose]
      rfl

theorem undouble_cons {a c : Char} (h : a ≠ c) (cs : List Char) : undouble c (a :: cs) = a :: undouble c cs := by
  cases cs with
  | nil => rfl
  | cons b cs =>
    rw [undouble, if_neg (by simp [h])]

theorem undouble_pair (c : Char) (cs : List Char) : undouble c (c :: c :: cs) = c :: undouble c cs := by
  rw [undouble, if_pos (by simp)]

end Template

open Template

theorem formatChars_pair {c : Char} (h : c = '\x7b' ∨ c = '\x7d') (rest : List Char) (values : List FormatValue) :
    formatChars (c :: c :: rest) values = (formatChars rest values).map (c :: ·) := by
  rcases h with rfl | rfl
  · rw [formatChars]
  · rw [formatChars]

theorem formatChars_self {c : Char} (hopen : c ≠ '\x7b') (hclose : c ≠ '\x7d') (rest : List Char)
    (values : List FormatValue) : formatChars (c :: rest) values = (formatChars rest values).map (c :: ·) := by
  rw [formatChars]
  · rw [if_neg (by simp [hopen, hclose])]
  all_goals simp [hopen, hclose]

/-- An escaped text shows as the text. -/
theorem formatChars_escape (text rest : List Char) (values : List FormatValue) :
    formatChars (double '\x7d' (double '\x7b' text) ++ rest) values = (formatChars rest values).map (text ++ ·) := by
  induction text with
  | nil => exact Option.map_id'.symm
  | cons c text ih =>
    have hcons : (formatChars (double '\x7d' (double '\x7b' text) ++ rest) values).map (c :: ·) =
        (formatChars rest values).map (c :: text ++ ·) := by
      rw [ih, Option.map_map]
      rfl
    rw [double_double_cons, List.append_assoc]
    by_cases hopen : c = '\x7b'
    · rw [if_pos (by simp [hopen]), ← hcons]
      exact formatChars_pair (.inl hopen) _ values
    · by_cases hclose : c = '\x7d'
      · rw [if_pos (by simp [hclose]), ← hcons]
        exact formatChars_pair (.inr hclose) _ values
      · rw [if_neg (by simp [hopen, hclose]), ← hcons]
        exact formatChars_self hopen hclose _ values

/-- A format text without marks shows what it is unescaped to. -/
theorem undouble_of_formatChars {cs shown : List Char} (h : formatChars cs [] = some shown) :
    undouble '\x7d' (undouble '\x7b' cs) = shown := by
  generalize hvalues : ([] : List FormatValue) = values at h
  fun_induction formatChars cs values generalizing shown with
  | case1 =>
    cases h
    rfl
  | case2 => cases hvalues
  | case3 rest values ih =>
    obtain ⟨shown, hrest, rfl⟩ := Option.map_eq_some_iff.mp h
    rw [undouble_pair, undouble_cons (by decide), ih hvalues hrest]
  | case4 rest values ih =>
    obtain ⟨shown, hrest, rfl⟩ := Option.map_eq_some_iff.mp h
    have hinner : undouble '\x7b' ('\x7d' :: '\x7d' :: rest) = '\x7d' :: '\x7d' :: undouble '\x7b' rest := by
      rw [undouble_cons (by decide), undouble_cons (by decide)]
    rw [hinner, undouble_pair, ih hvalues hrest]
  | case5 => cases hvalues
  | case6 => cases hvalues
  | case7 => cases hvalues
  | case8 c rest values => cases h
  | case9 c rest values _ _ _ _ hc ih =>
    obtain ⟨shown, hrest, rfl⟩ := Option.map_eq_some_iff.mp h
    obtain ⟨hopen, hclose⟩ : c ≠ '\x7b' ∧ c ≠ '\x7d' := by simpa using hc
    rw [undouble_cons hopen, undouble_cons hclose, ih hvalues hrest]

/-! ### Code -/

namespace Disassembly

open Code

/-- The class of registers whose names are in a table. -/
def classOf? : String → Option RegisterClass
  | "GPR_NAMES" => some .generalPurpose
  | "FPR_NAMES" => some .floatingPoint
  | _ => none

/-- The slot that a field holds. -/
def slotOf? : String → Option SlotName
  | "rd" => some .rd
  | "rs1" => some .rs1
  | "rs2" => some .rs2
  | "rs3" => some .rs3
  | _ => none

def isComma : Tree → Bool
  | .punct ',' _ => true
  | _ => false

section

variable (names : RegisterClass → List String) (insn : DecodedFields)

/-- The name of the register in a slot of a decoded instruction. -/
def registerName (registerClass : RegisterClass) (slot : SlotName) : String :=
  (names registerClass)[(insn.registers.get slot).toNat]?.getD "?"

/-- The value of the code of an argument. -/
def valueOf? : List Tree → Option FormatValue
  | [.ident "register_name", .group .paren
      [.punct '&' .alone, .ident table, .punct ',' .alone, .ident "insn", .punct '.' .alone, .ident field]] => do
    let registerClass ← classOf? table
    let slot ← slotOf? field
    return .text (registerName names insn registerClass slot)
  | [.ident "insn", .punct '.' .alone, .ident "immed"] => some (.signed insn.immediate)
  | [.ident "insn", .punct '.' .alone, .ident "immed", .ident "as", .ident "u32"] =>
    some (.unsigned (insn.immediate.setWidth 32))
  | _ => none

/-- The text that a piece of code comes to: a string literal, or a format text with its arguments. -/
def textOf? : List Tree → Option String
  | [.ident "String", .punct ':' .joint, .punct ':' .alone, .ident "from", .group .paren [.literal written]] =>
    literalText? written
  | [.ident "format", .punct '!' .alone, .group .paren (.literal written :: .punct ',' .alone :: arguments)] =>
    (literalText? written).bind fun format =>
      ((arguments.splitOnP isComma).mapM (valueOf? names insn)).bind fun values =>
        (formatChars format.toList values).map String.ofList
  | _ => none

/-- The value that an argument stands for. -/
def valueOf : FormatArgument → FormatValue
  | .register registerClass slot => .text (registerName names insn registerClass slot)
  | .immediate => .signed insn.immediate
  | .immediateHex => .unsigned (insn.immediate.setWidth 32)

/-- How an argument is shown at its mark. -/
def shownOf : FormatArgument → String
  | .register registerClass slot => registerName names insn registerClass slot
  | .immediate => Text.signedDecimal insn.immediate.toInt
  | .immediateHex => Text.hexadecimal (insn.immediate.setWidth 32).toNat 1

theorem formatChars_mark (argument : FormatArgument) (rest : List Char) (values : List FormatValue) :
    formatChars (argument.mark.toList ++ rest) (valueOf names insn argument :: values) =
      (formatChars rest values).map ((shownOf names insn argument).toList ++ ·) := by
  have hplain (value : FormatValue) : formatChars ("\x7b\x7d".toList ++ rest) (value :: values) =
      (formatChars rest values).map (value.plain.toList ++ ·) := by
    show formatChars ('\x7b' :: '\x7d' :: rest) (value :: values) = _
    rw [formatChars]
  cases argument with
  | register registerClass slot => exact hplain (.text (registerName names insn registerClass slot))
  | immediate => exact hplain (.signed insn.immediate)
  | immediateHex =>
    show formatChars ('\x7b' :: ':' :: '#' :: 'x' :: '\x7d' :: rest) _ = _
    rw [formatChars]
    rfl

theorem valueOf?_trees (argument : FormatArgument) :
    valueOf? names insn argument.trees = some (valueOf names insn argument) := by
  cases argument with
  | register registerClass slot => cases registerClass <;> cases slot <;> rfl
  | immediate => rfl
  | immediateHex => rfl

theorem mapM_valueOf? (arguments : List FormatArgument) :
    (arguments.map (·.trees)).mapM (valueOf? names insn) = some (arguments.map (valueOf names insn)) := by
  induction arguments with
  | nil => rfl
  | cons argument arguments ih =>
    rw [List.map_cons, List.mapM_cons, valueOf?_trees, ih]
    rfl

theorem textOf?_literal (text : String) :
    textOf? names insn (fixed "String::from" ++ parens [.string text]) = some text := by
  have hfixed : fixed "String::from" = [.ident "String", .punct ':' .joint, .punct ':' .alone, .ident "from"] := rfl
  rw [hfixed]
  exact literalText?_string text

theorem textOf?_format (format : String) (arguments : List Tree) :
    textOf? names insn (fixed "format!" ++ parens ([.string format, .punct ',' .alone] ++ arguments)) =
      ((arguments.splitOnP isComma).mapM (valueOf? names insn)).bind fun values =>
        (formatChars format.toList values).map String.ofList := by
  have hfixed : fixed "format!" = [.ident "format", .punct '!' .alone] := rfl
  rw [hfixed]
  show (literalText? _).bind _ = _
  rw [literalText?_string]
  rfl

end

theorem isComma_of_mem_trees {argument : FormatArgument} {tree : Tree} (h : tree ∈ argument.trees) :
    isComma tree = false := by
  cases argument with
  | register registerClass slot =>
    have htrees : (FormatArgument.register registerClass slot).trees.all (!isComma ·) = true := rfl
    simpa using List.all_eq_true.mp htrees tree h
  | immediate =>
    have htrees : FormatArgument.immediate.trees.all (!isComma ·) = true := rfl
    simpa using List.all_eq_true.mp htrees tree h
  | immediateHex =>
    have htrees : FormatArgument.immediateHex.trees.all (!isComma ·) = true := rfl
    simpa using List.all_eq_true.mp htrees tree h

theorem splitOnP_separated (first : FormatArgument) (others : List FormatArgument) :
    (separated ',' ((first :: others).map (·.trees))).splitOnP isComma = (first :: others).map (·.trees) := by
  induction others generalizing first with
  | nil =>
    rw [separated, List.map_singleton, List.intersperse_singleton, List.flatten_singleton]
    exact List.splitOnP_eq_singleton fun _ => isComma_of_mem_trees
  | cons second others ih =>
    rw [List.map_cons, separated, List.map_cons, List.intersperse_cons_cons, List.flatten_cons, List.flatten_cons,
      List.singleton_append, List.splitOnP_append_cons_of_forall_mem (fun _ => isComma_of_mem_trees) _ rfl]
    exact congrArg _ (ih second)

/-- The format text shows the given text, whatever follows it. -/
def Shows (shown : Disassembly) (names : RegisterClass → List String) (insn : DecodedFields) (text : String) : Prop :=
  ∀ rest values, formatChars (shown.format.toList ++ rest) (shown.arguments.map (valueOf names insn) ++ values) =
    (formatChars rest values).map (text.toList ++ ·)

namespace Shows

variable {shown : Disassembly} {names : RegisterClass → List String} {insn : DecodedFields} {text : String}

theorem verbatim (h : shown.Shows names insn text) (more : String) :
    (shown.verbatim more).Shows names insn (text ++ more) := by
  intro rest values
  have hformat : (shown.verbatim more).format.toList ++ rest =
      shown.format.toList ++ (double '\x7d' (double '\x7b' more.toList) ++ rest) := by
    simp [Disassembly.verbatim, escape]
  rw [hformat]
  show formatChars _ (shown.arguments.map _ ++ values) = _
  rw [h, formatChars_escape, Option.map_map]
  congr 1
  funext cs
  simp

theorem argument (h : shown.Shows names insn text) (argument : FormatArgument) :
    (shown.argument argument).Shows names insn (text ++ shownOf names insn argument) := by
  intro rest values
  have hformat : (shown.argument argument).format.toList ++ rest =
      shown.format.toList ++ (argument.mark.toList ++ rest) := by
    simp [Disassembly.argument]
  have harguments : (shown.argument argument).arguments.map (valueOf names insn) ++ values =
      shown.arguments.map (valueOf names insn) ++ (valueOf names insn argument :: values) := by
    simp [Disassembly.argument]
  rw [hformat, harguments, h, formatChars_mark, Option.map_map]
  congr 1
  funext cs
  simp

/-- The code comes to the text that the format text shows. -/
theorem textOf?_trees (h : shown.Shows names insn text) : textOf? names insn shown.trees = some text := by
  have hall : formatChars shown.format.toList (shown.arguments.map (valueOf names insn)) = some text.toList := by
    simpa [formatChars] using h [] []
  rw [trees]
  cases harguments : shown.arguments with
  | nil =>
    rw [harguments] at hall
    have htext : unescape shown.format = text := by
      rw [unescape, undouble_of_formatChars hall, String.ofList_toList]
    rw [htext]
    exact textOf?_literal names insn text
  | cons first others =>
    rw [harguments] at hall
    rw [if_neg (by simp), textOf?_format, splitOnP_separated, mapM_valueOf?, Option.bind_some, hall, Option.map_some,
      String.ofList_toList]

end Shows

end Disassembly

end IsaForge
