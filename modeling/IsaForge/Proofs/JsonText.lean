import IsaForge.Json.Parser
import IsaForge.Proofs.Reading

/-!
Texts of JSON values. `Spells` and `IsText` say which texts write a value: blanks may stand between any two tokens, and
a character of a string may be written as itself or by any of its escapes. Each text is read as the value that it writes
(`parse_of_isText`); the readers of the parser are followed one by one, each on a text with an arbitrary rest.
-/

namespace IsaForge.JsonValue

open Grammar (Stops takeWhile_run dropWhile_run)

/-! ### Blanks -/

/-- A run of blanks. -/
def IsBlanks (cs : List Char) : Prop :=
  ∀ c ∈ cs, isBlank c = true

theorem skipBlanks_append {gap rest : List Char} (hgap : IsBlanks gap) (hrest : Stops isBlank rest) :
    skipBlanks (gap ++ rest) = rest :=
  dropWhile_run hgap hrest

/-! ### Strings -/

/-- Four hexadecimal digits, and the number that they stand for. -/
inductive SpellsUnit : List Char → Nat → Prop
  | digits {a b c d : Char} {p q r s unit : Nat} : Text.digitValue? 16 a = some p → Text.digitValue? 16 b = some q →
    Text.digitValue? 16 c = some r → Text.digitValue? 16 d = some s →
    unit = ((p * 16 + q) * 16 + r) * 16 + s → SpellsUnit [a, b, c, d] unit

/-- The letters of the short escapes, and the characters that they stand for. -/
def shortEscapes : List (Char × Char) :=
  [('"', '"'), ('\\', '\\'), ('/', '/'), ('b', '\x08'), ('f', '\x0c'), ('n', '\n'), ('r', '\r'), ('t', '\t')]

/-- The ways to write a character of a string: as itself, by a short escape, by its number, or by two numbers if it is
above the basic plane. -/
inductive SpellsChar : List Char → Char → Prop
  | plain {c : Char} : c ≠ '"' → c ≠ '\\' → 0x20 ≤ c.toNat → SpellsChar [c] c
  | short {letter c : Char} : (letter, c) ∈ shortEscapes → SpellsChar ['\\', letter] c
  | unit {digits : List Char} {c : Char} : SpellsUnit digits c.toNat → SpellsChar ('\\' :: 'u' :: digits) c
  | pair {digits digits' : List Char} {high low : Nat} {c : Char} : SpellsUnit digits high → SpellsUnit digits' low →
    0xD800 ≤ high → high ≤ 0xDBFF → 0xDC00 ≤ low → low ≤ 0xDFFF →
    c.toNat = 0x10000 + (high - 0xD800) * 0x400 + (low - 0xDC00) →
    SpellsChar ('\\' :: 'u' :: (digits ++ '\\' :: 'u' :: digits')) c

/-- The inside of a string. -/
inductive SpellsChars : List Char → List Char → Prop
  | nil : SpellsChars [] []
  | cons {cs rest text : List Char} {c : Char} : SpellsChar cs c → SpellsChars rest text →
    SpellsChars (cs ++ rest) (c :: text)

/-- A string between its quotation marks. -/
inductive SpellsString : List Char → String → Prop
  | quoted {inner : List Char} {text : String} : SpellsChars inner text.toList →
    SpellsString ('"' :: (inner ++ ['"'])) text

/-- A text without quotation marks, backslashes and controls is written as itself. -/
theorem SpellsChars.self {cs : List Char} (h : ∀ c ∈ cs, c ≠ '"' ∧ c ≠ '\\' ∧ 0x20 ≤ c.toNat) : SpellsChars cs cs := by
  induction cs with
  | nil => exact .nil
  | cons c cs ih =>
    obtain ⟨hquote, hbackslash, hcontrol⟩ := h c List.mem_cons_self
    exact .cons (.plain hquote hbackslash hcontrol) (ih fun d hd => h d (List.mem_cons_of_mem c hd))

theorem hexUnit_append {digits : List Char} {unit : Nat} (h : SpellsUnit digits unit) (rest : List Char) :
    hexUnit (digits ++ rest) = some (unit, rest) := by
  cases h with
  | digits ha hb hc hd hunit => simp [hexUnit, Text.readDigits, ha, hb, hc, hd, hunit]

theorem escaped_unit {digits : List Char} {c : Char} (h : SpellsUnit digits c.toNat) (rest : List Char) :
    escaped ('u' :: (digits ++ rest)) = some (c, rest) := by
  -- A character is never half of a surrogate pair.
  have hvalid : c.toNat < 0xD800 ∨ 0xDFFF < c.toNat ∧ c.toNat < 0x110000 := c.valid
  have hplain : (decide (c.toNat < 0xD800) || decide (0xDFFF < c.toNat)) = true := by
    rw [Bool.or_eq_true, decide_eq_true_eq, decide_eq_true_eq]
    omega
  rw [escaped, unicodeEscape, hexUnit_append h]
  dsimp only
  rw [if_pos hplain, Char.ofNat_toNat]

theorem escaped_pair {digits digits' : List Char} {high low : Nat} {c : Char} (hhigh : SpellsUnit digits high)
    (hlow : SpellsUnit digits' low) (hhigh' : 0xD800 ≤ high ∧ high ≤ 0xDBFF) (hlow' : 0xDC00 ≤ low ∧ low ≤ 0xDFFF)
    (hc : c.toNat = 0x10000 + (high - 0xD800) * 0x400 + (low - 0xDC00)) (rest : List Char) :
    escaped ('u' :: (digits ++ '\\' :: 'u' :: (digits' ++ rest))) = some (c, rest) := by
  have hplain : (decide (high < 0xD800) || decide (0xDFFF < high)) = false := by
    rw [Bool.or_eq_false_iff, decide_eq_false_iff_not, decide_eq_false_iff_not]
    omega
  rw [escaped, unicodeEscape, hexUnit_append hhigh]
  dsimp only
  rw [hplain, if_neg (by decide), if_neg (by omega)]
  simp only [hexUnit_append hlow]
  rw [if_pos (by simp [hlow']), ← hc, Char.ofNat_toNat]

theorem escaped_short {letter c : Char} (h : (letter, c) ∈ shortEscapes) (rest : List Char) :
    escaped (letter :: rest) = some (c, rest) := by
  simp only [shortEscapes, List.mem_cons, Prod.mk.injEq, List.not_mem_nil, or_false] at h
  rcases h with ⟨rfl, rfl⟩ | ⟨rfl, rfl⟩ | ⟨rfl, rfl⟩ | ⟨rfl, rfl⟩ | ⟨rfl, rfl⟩ | ⟨rfl, rfl⟩ | ⟨rfl, rfl⟩ |
    ⟨rfl, rfl⟩ <;> rfl

theorem stringBody_escaped {cs rest : List Char} {c : Char} (h : escaped cs = some (c, rest)) (limit : Nat) :
    stringBody (limit + 1) ('\\' :: cs) = (stringBody limit rest).map fun (text, rest) => (c :: text, rest) := by
  rw [stringBody, h]

/-- A written character is read before the rest of a string. -/
theorem stringBody_char {cs : List Char} {c : Char} (h : SpellsChar cs c) (limit : Nat) (rest : List Char) :
    stringBody (limit + 1) (cs ++ rest) = (stringBody limit rest).map fun (text, rest) => (c :: text, rest) := by
  cases h with
  | plain hquote hbackslash hcontrol =>
    rw [List.singleton_append, stringBody]
    · rw [if_neg (by omega)]
    · exact hquote
    · exact hbackslash
  | short hmem => exact stringBody_escaped (escaped_short hmem rest) limit
  | unit hdigits => exact stringBody_escaped (escaped_unit hdigits rest) limit
  | pair hhigh hlow h₁ h₂ h₃ h₄ hc =>
    rw [List.cons_append, List.cons_append, List.append_assoc, List.cons_append, List.cons_append]
    exact stringBody_escaped (escaped_pair hhigh hlow ⟨h₁, h₂⟩ ⟨h₃, h₄⟩ hc rest) limit

theorem SpellsChar.length_pos {cs : List Char} {c : Char} (h : SpellsChar cs c) : 0 < cs.length := by
  cases h <;> simp

theorem stringBody_append {cs text : List Char} (h : SpellsChars cs text) {limit : Nat} (hlimit : cs.length < limit)
    (rest : List Char) : stringBody limit (cs ++ '"' :: rest) = some (text, rest) := by
  induction h generalizing limit with
  | nil =>
    obtain ⟨limit, rfl⟩ := Nat.exists_eq_add_one.mpr hlimit
    exact stringBody_quote limit rest
  | @cons cs others text c hc hothers ih =>
    have hpos := hc.length_pos
    rw [List.length_append] at hlimit
    obtain ⟨limit, rfl⟩ := Nat.exists_eq_add_one.mpr (by omega : 0 < limit)
    rw [List.append_assoc, stringBody_char hc, ih (by omega)]
    rfl

theorem stringLiteral_append {cs : List Char} {text : String} (h : SpellsString cs text) (rest : List Char) :
    stringLiteral (cs ++ rest) = some (text, rest) := by
  cases h with
  | @quoted inner text hinner =>
    rw [List.cons_append, List.append_assoc, List.singleton_append, stringLiteral,
      stringBody_append hinner (by simp only [List.length_append]; omega)]
    simp

/-! ### Numbers -/

/-- One or more digits. -/
def IsDigits (cs : List Char) : Prop :=
  cs ≠ [] ∧ ∀ c ∈ cs, c.isDigit = true

/-- The digits before the point. -/
inductive IsWhole : List Char → Prop
  | zero : IsWhole ['0']
  | digits {cs : List Char} : IsDigits cs → cs.head? ≠ some '0' → IsWhole cs

/-- The point and the digits after it, or nothing. -/
inductive IsFraction : List Char → Prop
  | nil : IsFraction []
  | point {cs : List Char} : IsDigits cs → IsFraction ('.' :: cs)

/-- The exponent, or nothing. -/
inductive IsExponent : List Char → Prop
  | nil : IsExponent []
  | mark {mark : Char} {sign cs : List Char} : mark = 'e' ∨ mark = 'E' → sign ∈ [[], ['+'], ['-']] → IsDigits cs →
    IsExponent (mark :: (sign ++ cs))

/-- A number. -/
inductive IsNumber : List Char → Prop
  | parts {sign whole fraction exponent : List Char} : sign ∈ [[], ['-']] → IsWhole whole → IsFraction fraction →
    IsExponent exponent → IsNumber (sign ++ whole ++ fraction ++ exponent)

/-- The characters by which a number could go on. -/
def isNumberPart (c : Char) : Bool :=
  (c.isDigit || c == '.') || (c == 'e' || c == 'E')

theorem someDigits_append {cs rest : List Char} (h : IsDigits cs) (hrest : Stops Char.isDigit rest) :
    someDigits (cs ++ rest) = some (cs, rest) := by
  rw [someDigits, takeWhile_run h.2 hrest]
  simp [h.1]

theorem integerPart_append {cs rest : List Char} (h : IsWhole cs) (hrest : Stops Char.isDigit rest) :
    integerPart (cs ++ rest) = some (cs, rest) := by
  cases h with
  | zero => rfl
  | digits hdigits hhead =>
    rw [integerPart, someDigits_append hdigits hrest]
    intro more hmore
    obtain ⟨c, cs, rfl⟩ := List.exists_cons_of_ne_nil hdigits.1
    rw [List.cons_append, List.cons.injEq] at hmore
    exact hhead (congrArg some hmore.1)

theorem fractionPart_append {cs rest : List Char} (h : IsFraction cs)
    (hrest : Stops (fun c => c.isDigit || c == '.') rest) : fractionPart (cs ++ rest) = some (cs, rest) := by
  obtain ⟨hdigit, hpoint⟩ := hrest.of_or
  cases h with
  | nil =>
    rw [List.nil_append, fractionPart]
    rintro more rfl
    simpa using hpoint '.' rfl
  | point hdigits =>
    rw [List.cons_append, fractionPart, someDigits_append hdigits hdigit]
    rfl

theorem exponentPart_append {cs rest : List Char} (h : IsExponent cs)
    (hrest : Stops (fun c => c.isDigit || (c == 'e' || c == 'E')) rest) :
    exponentPart (cs ++ rest) = some (cs, rest) := by
  obtain ⟨hdigit, hmark⟩ := hrest.of_or
  cases h with
  | nil =>
    cases rest with
    | nil => rfl
    | cons c rest =>
      have hc := hmark c rfl
      rw [List.nil_append, exponentPart, if_neg (by simpa using hc)]
  | @mark mark sign cs hmark hsign hdigits =>
    have hstop : Stops (fun c => c == '+' || c == '-') (cs ++ rest) := by
      refine .run hdigits.1 hdigits.2 (fun c hc => ?_) rest
      rw [Bool.or_eq_false_iff, beq_eq_false_iff_ne, beq_eq_false_iff_ne]
      constructor <;> rintro rfl <;> simp at hc
    have htake : ((sign ++ (cs ++ rest)).takeWhile fun c => c == '+' || c == '-') = sign := by
      refine takeWhile_run (fun c hc => ?_) hstop
      simp only [List.mem_cons, List.not_mem_nil, or_false] at hsign
      rcases hsign with rfl | rfl | rfl <;> simp_all
    have htake' : sign.take 1 = sign := by
      simp only [List.mem_cons, List.not_mem_nil, or_false] at hsign
      rcases hsign with rfl | rfl | rfl <;> rfl
    rw [List.cons_append, List.append_assoc, exponentPart, if_pos (by simpa using hmark)]
    simp only [htake, htake', List.drop_left, someDigits_append hdigits hdigit]
    simp

theorem IsWhole.isDigits {cs : List Char} (h : IsWhole cs) : IsDigits cs := by
  cases h with
  | zero => exact ⟨by simp, by simp⟩
  | digits hdigits _ => exact hdigits

theorem IsExponent.stops {cs rest : List Char} (h : IsExponent cs) (hrest : Stops isNumberPart rest) :
    Stops (fun c => c.isDigit || c == '.') (cs ++ rest) := by
  cases h with
  | nil => exact hrest.of_or.1
  | mark hmark hsign hdigits => rcases hmark with rfl | rfl <;> exact .cons rfl

theorem IsFraction.stops {cs rest : List Char} (h : IsFraction cs)
    (hrest : Stops (fun c => c.isDigit || c == '.') rest) : Stops Char.isDigit (cs ++ rest) := by
  cases h with
  | nil => exact hrest.of_or.1
  | point hdigits => exact .cons rfl

/-- A number begins with a sign or a digit. -/
theorem IsNumber.exists_head {cs : List Char} (h : IsNumber cs) :
    ∃ c more, cs = c :: more ∧ (c = '-' ∨ c.isDigit = true) := by
  cases h with
  | @parts sign whole fraction exponent hsign hwhole hfraction hexponent =>
    obtain ⟨c, more, rfl⟩ := List.exists_cons_of_ne_nil hwhole.isDigits.1
    simp only [List.mem_cons, List.not_mem_nil, or_false] at hsign
    rcases hsign with rfl | rfl
    · exact ⟨c, more ++ fraction ++ exponent, by simp, .inr (hwhole.isDigits.2 c List.mem_cons_self)⟩
    · exact ⟨'-', c :: more ++ fraction ++ exponent, by simp, .inl rfl⟩

theorem numberLiteral_append {cs rest : List Char} (h : IsNumber cs) (hrest : Stops isNumberPart rest) :
    numberLiteral (cs ++ rest) = some (String.ofList cs, rest) := by
  cases h with
  | @parts sign whole fraction exponent hsign hwhole hfraction hexponent =>
    have hexponent' : exponentPart (exponent ++ rest) = some (exponent, rest) := by
      apply exponentPart_append hexponent
      intro c hc
      have hc' := hrest c hc
      simp only [isNumberPart, Bool.or_eq_false_iff] at hc' ⊢
      exact ⟨hc'.1.1, hc'.2⟩
    have hstop := hexponent.stops hrest
    have hfraction' := fractionPart_append hfraction hstop
    have hwhole' := integerPart_append hwhole (hfraction.stops hstop)
    simp only [List.mem_cons, List.not_mem_nil, or_false] at hsign
    rcases hsign with rfl | rfl
    · rw [List.nil_append, List.append_assoc, List.append_assoc, numberLiteral]
      · simp [hwhole', hfraction', hexponent']
      · intro more heq
        obtain ⟨c, digits, rfl⟩ := List.exists_cons_of_ne_nil hwhole.isDigits.1
        have hdigit := hwhole.isDigits.2 c List.mem_cons_self
        rw [List.cons_append, List.cons.injEq] at heq
        rw [heq.1] at hdigit
        exact absurd hdigit (by decide)
    · simp [numberLiteral, hwhole', hfraction', hexponent']

/-! ### Values -/

mutual

/-- A value, with no blanks around it. -/
inductive Spells : List Char → JsonValue → Prop
  | null : Spells "null".toList .null
  | bool (b : Bool) : Spells (if b then "true" else "false").toList (.bool b)
  | number {cs : List Char} : IsNumber cs → Spells cs (.number (String.ofList cs))
  | string {cs : List Char} {text : String} : SpellsString cs text → Spells cs (.string text)
  | noElements {gap : List Char} : IsBlanks gap → Spells ('[' :: (gap ++ [']'])) (.array [])
  | array {gap cs : List Char} {found : List JsonValue} : IsBlanks gap → SpellsElements cs found →
    Spells ('[' :: (gap ++ cs)) (.array found)
  | noMembers {gap : List Char} : IsBlanks gap → Spells ('\x7b' :: (gap ++ ['\x7d'])) (.object [])
  | object {gap cs : List Char} {found : List (String × JsonValue)} : IsBlanks gap → SpellsMembers cs found →
    Spells ('\x7b' :: (gap ++ cs)) (.object found)

/-- The elements of an array up to its closing bracket. -/
inductive SpellsElements : List Char → List JsonValue → Prop
  | last {cs gap : List Char} {v : JsonValue} : Spells cs v → IsBlanks gap → SpellsElements (cs ++ (gap ++ [']'])) [v]
  | more {cs gap gap' rest : List Char} {v : JsonValue} {found : List JsonValue} : Spells cs v → IsBlanks gap →
    IsBlanks gap' → SpellsElements rest found → SpellsElements (cs ++ (gap ++ ',' :: (gap' ++ rest))) (v :: found)

/-- The members of an object up to its closing bracket. -/
inductive SpellsMembers : List Char → List (String × JsonValue) → Prop
  | last {cs : List Char} {member : String × JsonValue} {gap : List Char} : SpellsMember cs member → IsBlanks gap →
    SpellsMembers (cs ++ (gap ++ ['\x7d'])) [member]
  | more {cs : List Char} {member : String × JsonValue} {gap gap' rest : List Char}
    {found : List (String × JsonValue)} : SpellsMember cs member → IsBlanks gap → IsBlanks gap' →
    SpellsMembers rest found → SpellsMembers (cs ++ (gap ++ ',' :: (gap' ++ rest))) (member :: found)

/-- A key and its value. -/
inductive SpellsMember : List Char → String × JsonValue → Prop
  | colon {ks gap gap' cs : List Char} {key : String} {v : JsonValue} : SpellsString ks key → IsBlanks gap →
    IsBlanks gap' → Spells cs v → SpellsMember (ks ++ (gap ++ ':' :: (gap' ++ cs))) (key, v)

end

/-- A whole text: one value with blanks around it. -/
inductive IsText (text : String) (v : JsonValue) : Prop
  | blanks {gap cs gap' : List Char} : IsBlanks gap → Spells cs v → IsBlanks gap' →
    text.toList = gap ++ (cs ++ gap') → IsText text v

theorem ne_of_number_head {c d : Char} (hc : c = '-' ∨ c.isDigit = true) (hd : d ≠ '-' ∧ d.isDigit = false) :
    c ≠ d := by
  rintro rfl
  rcases hc with hc | hc
  · exact hd.1 hc
  · exact absurd hc (by simp [hd.2])

/-- A value begins with a character that neither is a blank nor closes an array. -/
theorem Spells.exists_head {cs : List Char} {v : JsonValue} (h : Spells cs v) :
    ∃ c more, cs = c :: more ∧ isBlank c = false ∧ c ≠ ']' := by
  cases h with
  | null => exact ⟨'n', _, rfl, rfl, by decide⟩
  | bool b => cases b <;> exact ⟨_, _, rfl, rfl, by decide⟩
  | number hnumber =>
    obtain ⟨c, more, rfl, hc⟩ := hnumber.exists_head
    refine ⟨c, more, rfl, ?_, ne_of_number_head hc (by decide)⟩
    simp only [isBlank, Bool.or_eq_false_iff, beq_eq_false_iff_ne]
    exact ⟨⟨⟨ne_of_number_head hc (by decide), ne_of_number_head hc (by decide)⟩,
      ne_of_number_head hc (by decide)⟩, ne_of_number_head hc (by decide)⟩
  | string hstring =>
    cases hstring
    exact ⟨_, _, rfl, rfl, by decide⟩
  | noElements | array | noMembers | object => exact ⟨_, _, rfl, rfl, by decide⟩

theorem SpellsElements.exists_head {cs : List Char} {found : List JsonValue} (h : SpellsElements cs found) :
    ∃ c more, cs = c :: more ∧ isBlank c = false ∧ c ≠ ']' := by
  cases h with
  | last hfirst | more hfirst =>
    obtain ⟨c, more, rfl, hc⟩ := hfirst.exists_head
    exact ⟨c, _, rfl, hc⟩

theorem SpellsMembers.exists_head {cs : List Char} {found : List (String × JsonValue)} (h : SpellsMembers cs found) :
    ∃ more, cs = '"' :: more := by
  cases h with
  | last hfirst | more hfirst =>
    cases hfirst with
    | colon hkey =>
      cases hkey
      exact ⟨_, rfl⟩

theorem Spells.stops {cs : List Char} {v : JsonValue} (h : Spells cs v) (rest : List Char) :
    Stops isBlank (cs ++ rest) := by
  obtain ⟨c, more, rfl, hblank, _⟩ := h.exists_head
  exact .cons hblank

theorem SpellsElements.stops {cs : List Char} {found : List JsonValue} (h : SpellsElements cs found)
    (rest : List Char) : Stops isBlank (cs ++ rest) := by
  obtain ⟨c, more, rfl, hblank, _⟩ := h.exists_head
  exact .cons hblank

theorem SpellsMembers.stops {cs : List Char} {found : List (String × JsonValue)} (h : SpellsMembers cs found)
    (rest : List Char) : Stops isBlank (cs ++ rest) := by
  obtain ⟨more, rfl⟩ := h.exists_head
  exact .cons rfl

/-- No number goes on with a blank. -/
theorem stops_gap {gap rest : List Char} (hgap : IsBlanks gap) (hrest : Stops isNumberPart rest) :
    Stops isNumberPart (gap ++ rest) := by
  cases gap with
  | nil => exact hrest
  | cons c gap =>
    have hc := hgap c List.mem_cons_self
    simp only [isBlank, Bool.or_eq_true, beq_iff_eq] at hc
    rcases hc with ((rfl | rfl) | rfl) | rfl <;> exact .cons rfl

/-- Everything of fewer than `limit` characters is read in `limit` steps. -/
structure ReadsWithin (limit : Nat) : Prop where
  value {cs : List Char} {v : JsonValue} : Spells cs v → cs.length < limit → ∀ rest, Stops isNumberPart rest →
    value limit (cs ++ rest) = some (v, rest)
  elements {cs : List Char} {found : List JsonValue} : SpellsElements cs found → cs.length < limit → ∀ rest,
    elements limit (cs ++ rest) = some (found, rest)
  members {cs : List Char} {found : List (String × JsonValue)} : SpellsMembers cs found → cs.length < limit →
    ∀ rest, members limit (cs ++ rest) = some (found, rest)

theorem value_number {c : Char} {cs : List Char} (hc : c = '-' ∨ c.isDigit = true) (limit : Nat) :
    value (limit + 1) (c :: cs) = (numberLiteral (c :: cs)).map fun (text, rest) => (.number text, rest) := by
  rw [value]
  all_goals
    intro more heq
    exact ne_of_number_head hc (by decide) (List.cons.inj heq).1

theorem value_array {gap : List Char} (hgap : IsBlanks gap) (limit : Nat) {c : Char} (cs : List Char)
    (hblank : isBlank c = false) (hc : c ≠ ']') :
    value (limit + 1) ('[' :: (gap ++ c :: cs)) =
      (elements limit (c :: cs)).map fun (found, rest) => (.array found, rest) := by
  have hskip := skipBlanks_append hgap (Stops.cons hblank : Stops isBlank (c :: cs))
  simp only [value, hskip]
  split
  · rename_i heq
    exact absurd (List.cons.inj heq).1 hc
  · rfl

theorem ReadsWithin.value_succ {limit : Nat} (h : ReadsWithin limit) {cs : List Char} {v : JsonValue}
    (hspells : Spells cs v) (hlength : cs.length < limit + 1) (rest : List Char) (hrest : Stops isNumberPart rest) :
    JsonValue.value (limit + 1) (cs ++ rest) = some (v, rest) := by
  cases hspells with
  | null => simp [JsonValue.value, stripWord]
  | bool b => cases b <;> simp [JsonValue.value, stripWord]
  | number hnumber =>
    obtain ⟨c, more, rfl, hc⟩ := hnumber.exists_head
    rw [List.cons_append, value_number hc, ← List.cons_append, numberLiteral_append hnumber hrest]
    rfl
  | string hstring =>
    have hread := stringLiteral_append hstring rest
    cases hstring
    rw [List.cons_append, value_string, ← List.cons_append, hread]
    rfl
  | noElements hgap =>
    have hskip := skipBlanks_append hgap (Stops.cons rfl : Stops isBlank (']' :: rest))
    simp [JsonValue.value, hskip]
  | array hgap hfound =>
    rw [List.length_cons, List.length_append] at hlength
    have hread := h.elements hfound (by omega) rest
    obtain ⟨c, more, rfl, hblank, hc⟩ := hfound.exists_head
    rw [List.cons_append, List.append_assoc, List.cons_append, value_array hgap limit _ hblank hc, ← List.cons_append,
      hread]
    rfl
  | noMembers hgap =>
    have hskip := skipBlanks_append hgap (Stops.cons rfl : Stops isBlank ('\x7d' :: rest))
    simp [JsonValue.value, hskip]
  | object hgap hfound =>
    rw [List.length_cons, List.length_append] at hlength
    have hread := h.members hfound (by omega) rest
    have hskip := skipBlanks_append hgap (hfound.stops rest)
    obtain ⟨more, rfl⟩ := hfound.exists_head
    rw [List.cons_append] at hread hskip
    simp [JsonValue.value, hskip, hread]

theorem ReadsWithin.elements_succ {limit : Nat} (h : ReadsWithin limit) {cs : List Char} {found : List JsonValue}
    (hspells : SpellsElements cs found) (hlength : cs.length < limit + 1) (rest : List Char) :
    JsonValue.elements (limit + 1) (cs ++ rest) = some (found, rest) := by
  cases hspells with
  | @last cs gap v hfirst hgap =>
    simp only [List.length_append, List.length_singleton] at hlength
    have hread := h.value hfirst (by omega) (gap ++ ']' :: rest) (stops_gap hgap (.cons rfl))
    have hskip := skipBlanks_append hgap (.cons rfl : Stops isBlank (']' :: rest))
    simp [JsonValue.elements, hread, hskip]
  | @more cs gap gap' others v found hfirst hgap hgap' hothers =>
    simp only [List.length_append, List.length_cons] at hlength
    have hread := h.value hfirst (by omega) (gap ++ ',' :: (gap' ++ (others ++ rest))) (stops_gap hgap (.cons rfl))
    have hskip := skipBlanks_append hgap (.cons rfl : Stops isBlank (',' :: (gap' ++ (others ++ rest))))
    have hskip' := skipBlanks_append hgap' (hothers.stops rest)
    have hothers' := h.elements hothers (by omega) rest
    simp [JsonValue.elements, hread, hskip, hskip', hothers']

/-- After a member the members end, or go on with a comma. -/
theorem ReadsWithin.members_member {limit : Nat} (h : ReadsWithin limit) {cs : List Char} {member : String × JsonValue}
    (hspells : SpellsMember cs member) (hlength : cs.length ≤ limit) {rest after : List Char}
    (hrest : Stops isNumberPart rest) :
    (skipBlanks rest = '\x7d' :: after → JsonValue.members (limit + 1) (cs ++ rest) = some ([member], after)) ∧
    (skipBlanks rest = ',' :: after → JsonValue.members (limit + 1) (cs ++ rest) =
      (JsonValue.members limit (skipBlanks after)).map fun (more, rest) => (member :: more, rest)) := by
  cases hspells with
  | @colon ks gap gap' cs key v hkey hgap hgap' hv =>
    simp only [List.length_append, List.length_cons] at hlength
    have hkey' := stringLiteral_append hkey (gap ++ ':' :: (gap' ++ (cs ++ rest)))
    have hskip := skipBlanks_append hgap (.cons rfl : Stops isBlank (':' :: (gap' ++ (cs ++ rest))))
    have hskip' := skipBlanks_append hgap' (hv.stops rest)
    have hread := h.value hv (by omega) rest hrest
    constructor
    · intro hend
      simp [JsonValue.members, hkey', hskip, hskip', hread, hend]
    · intro hcomma
      simp [JsonValue.members, hkey', hskip, hskip', hread, hcomma]

theorem ReadsWithin.members_succ {limit : Nat} (h : ReadsWithin limit) {cs : List Char}
    {found : List (String × JsonValue)} (hspells : SpellsMembers cs found) (hlength : cs.length < limit + 1)
    (rest : List Char) : JsonValue.members (limit + 1) (cs ++ rest) = some (found, rest) := by
  cases hspells with
  | @last cs member gap hfirst hgap =>
    simp only [List.length_append, List.length_singleton] at hlength
    have hskip := skipBlanks_append hgap (.cons rfl : Stops isBlank ('\x7d' :: rest))
    rw [List.append_assoc, List.append_assoc, List.singleton_append]
    exact (h.members_member hfirst (by omega) (stops_gap hgap (.cons rfl))).1 hskip
  | @more cs member gap gap' others found hfirst hgap hgap' hothers =>
    simp only [List.length_append, List.length_cons] at hlength
    have hskip := skipBlanks_append hgap (.cons rfl : Stops isBlank (',' :: (gap' ++ (others ++ rest))))
    have hskip' := skipBlanks_append hgap' (hothers.stops rest)
    have hothers' := h.members hothers (by omega) rest
    rw [List.append_assoc, List.append_assoc, List.cons_append, List.append_assoc,
      (h.members_member hfirst (by omega) (stops_gap hgap (.cons rfl))).2 hskip, hskip', hothers']
    rfl

theorem readsWithin (limit : Nat) : ReadsWithin limit := by
  -- The three readers call one another with a limit one lower, each on a text that is shorter by a bracket or more.
  induction limit with
  | zero => exact ⟨nofun, nofun, nofun⟩
  | succ limit ih => exact ⟨ih.value_succ, ih.elements_succ, ih.members_succ⟩

/-- Reading a text gives the value that it writes. -/
theorem parse_of_isText {text : String} {v : JsonValue} (h : IsText text v) : parse text = some v := by
  cases h with
  | @blanks gap cs gap' hgap hspells hgap' htext =>
    have hstops : Stops isNumberPart gap' := by simpa using stops_gap hgap' .nil
    have hskip : skipBlanks text.toList = cs ++ gap' := by
      rw [htext, skipBlanks_append hgap (hspells.stops gap')]
    have hread := (readsWithin (2 * (cs ++ gap').length + 1)).value hspells
      (by rw [List.length_append]; omega) gap' hstops
    have hend : skipBlanks gap' = [] := by simpa using skipBlanks_append hgap' .nil
    simp only [parse, hskip, hread, hend, List.isEmpty_nil, if_true]

end IsaForge.JsonValue
