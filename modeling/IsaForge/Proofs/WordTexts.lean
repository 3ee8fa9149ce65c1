import IsaForge.CommandLine
import IsaForge.Proofs.Digits

/-!
The texts that are read as a word. `Denotes` says which texts stand for a number: digits in decimal, or in hexadecimal
behind a marker, the letters in either case and underscores anywhere among them. Reading keeps its number below the
limit at every digit, and fails exactly if the number of all the digits is not (`readDigits_of_showsDigit`). So a text
is read as a word if it stands for the number of the word, and only then (`parse_eq_ok_iff`).
-/

namespace IsaForge.Word

open Text (ShowsDigit valueAfter wordLimit)

/-! ### Reading numerals -/

section

variable {base value n : Nat} {digits : List Nat} {cs : List Char}

/-- Digits are read as the number that they stand for, unless it is too large. -/
theorem readDigits_of_showsDigit (hbase : base ≤ 16) (h : List.Forall₂ (ShowsDigit base) digits cs)
    (hvalue : value < wordLimit) :
    readDigits base value cs =
      if wordLimit ≤ valueAfter base value digits then .error .tooLarge else .ok (valueAfter base value digits) := by
  induction h generalizing value with
  | nil => rw [readDigits, Text.valueAfter_nil, if_neg (Nat.not_le_of_lt hvalue)]
  | @cons digit c digits cs hc _ ih =>
    rw [readDigits, (Text.digitValue?_eq_some_iff hbase).mpr hc, Text.valueAfter_cons]
    dsimp only
    by_cases hlimit : wordLimit ≤ value * base + digit
    · -- the digits that follow only add to a number that is too large already
      have hrest := Text.le_valueAfter (Nat.zero_lt_of_lt hc.1) (value * base + digit) digits
      rw [if_pos hlimit, if_pos (Nat.le_trans hlimit hrest)]
    · rw [if_neg hlimit, ih (Nat.lt_of_not_le hlimit)]

theorem exists_showsDigit_of_readDigits (hbase : base ≤ 16) (h : readDigits base value cs = .ok n) :
    ∃ digits, List.Forall₂ (ShowsDigit base) digits cs := by
  induction cs generalizing value with
  | nil => exact ⟨[], .nil⟩
  | cons c cs ih =>
    rw [readDigits] at h
    split at h
    · cases h
    · next digit hc =>
      split at h
      · cases h
      · obtain ⟨digits, hdigits⟩ := ih h
        exact ⟨digit :: digits, .cons ((Text.digitValue?_eq_some_iff hbase).mp hc) hdigits⟩

/-- A numeral with or without a plus sign. -/
def signed (plus : Bool) (cs : List Char) : List Char :=
  if plus then '+' :: cs else cs

theorem readNumeral_signed (hbase : base ≤ 16) (h : List.Forall₂ (ShowsDigit base) digits cs) (plus : Bool) :
    readNumeral base (signed plus cs) =
      if digits = [] then .error (if plus then .invalidDigit else .empty)
      else if wordLimit ≤ Nat.ofDigits base digits.reverse then .error .tooLarge
      else .ok (Nat.ofDigits base digits.reverse) := by
  cases h with
  | nil => cases plus <;> rfl
  | @cons digit c digits cs hc hcs =>
    have hplus : c ≠ '+' := by
      rintro rfl
      cases (Text.digitValue?_eq_some_iff hbase).mpr hc
    have hread : readNumeral base (signed plus (c :: cs)) = readDigits base 0 (c :: cs) := by
      cases plus <;> simp [signed, readNumeral, hplus]
    rw [hread, readDigits_of_showsDigit hbase (.cons hc hcs) (by decide), Text.valueAfter_zero,
      if_neg (List.cons_ne_nil _ _)]

theorem exists_signed_of_readNumeral (h : readNumeral base cs = .ok n) :
    ∃ plus ds, cs = signed plus ds ∧ ds ≠ [] ∧ readDigits base 0 ds = .ok n := by
  unfold readNumeral at h
  split at h
  · cases h
  · cases h
  · next digits hdigits => exact ⟨true, digits, rfl, by simpa using hdigits, h⟩
  · next hempty _ _ => exact ⟨false, cs, rfl, hempty, h⟩

end

/-! ### Underscores -/

/-- The second text is the first with underscores put into it. -/
inductive Spaced : List Char → List Char → Prop
  | nil : Spaced [] []
  | underscore {cs text : List Char} : Spaced cs text → Spaced cs ('_' :: text)
  | char {c : Char} {cs text : List Char} : Spaced cs text → Spaced (c :: cs) (c :: text)

namespace Spaced

variable {cs text : List Char}

theorem refl (cs : List Char) : Spaced cs cs := by
  induction cs with
  | nil => exact .nil
  | cons c cs ih => exact .char ih

theorem eq_underscore_or_mem (h : Spaced cs text) {c : Char} (hc : c ∈ text) : c = '_' ∨ c ∈ cs := by
  induction h with
  | nil => cases hc
  | underscore _ ih =>
    rcases List.mem_cons.mp hc with rfl | hc
    · exact .inl rfl
    · exact ih hc
  | char _ ih =>
    rcases List.mem_cons.mp hc with rfl | hc
    · exact .inr List.mem_cons_self
    · exact (ih hc).imp_right (List.mem_cons_of_mem _)

theorem filter_eq (h : Spaced cs text) (hcs : '_' ∉ cs) : text.filter (· != '_') = cs := by
  induction h with
  | nil => rfl
  | underscore _ ih => exact ih hcs
  | @char c cs text _ ih =>
    rw [List.mem_cons, not_or] at hcs
    rw [List.filter_cons_of_pos (by simpa using Ne.symm hcs.1), ih hcs.2]

theorem of_filter (text : List Char) : Spaced (text.filter (· != '_')) text := by
  induction text with
  | nil => exact .nil
  | cons c text ih =>
    by_cases hc : c = '_'
    · rw [hc]
      exact .underscore ih
    · rw [List.filter_cons_of_pos (by simpa using hc)]
      exact .char ih

end Spaced

/-! ### Styles -/

/-- The ways to write a number: in decimal, or in hexadecimal behind one of its markers. -/
inductive Style where
  | decimal
  | lowerMarker
  | upperMarker

namespace Style

def base : Style → Nat
  | .decimal => 10
  | .lowerMarker | .upperMarker => 16

def marker : Style → String
  | .decimal => ""
  | .lowerMarker => "0x"
  | .upperMarker => "0X"

theorem one_lt_base (style : Style) : 1 < style.base := by
  cases style <;> decide

theorem base_le (style : Style) : style.base ≤ 16 := by
  cases style <;> decide

/-- A text of a style that shows digits, from the most significant one: the marker, maybe a plus sign, and the digits,
with underscores anywhere behind the marker. -/
def Shows (style : Style) (plus : Bool) (digits : List Nat) (text : String) : Prop :=
  ∃ cs rest, List.Forall₂ (ShowsDigit style.base) digits cs ∧ Spaced (signed plus cs) rest ∧
    text = style.marker ++ String.ofList rest

end Style

/-- A text that stands for a number. -/
def Denotes (text : String) (n : Nat) : Prop :=
  ∃ (style : Style) (plus : Bool) (digits : List Nat),
    style.Shows plus digits text ∧ digits ≠ [] ∧ Nat.ofDigits style.base digits.reverse = n

/-- A number as it is written, maybe behind zeros, with letters in either case and underscores. -/
theorem denotes_of_toDigits {style : Style} {zeros n : Nat} {cs text : List Char}
    (h : cs.map Char.toLower = List.replicate zeros '0' ++ Nat.toDigits style.base n) (hspaced : Spaced cs text) :
    Denotes (style.marker ++ String.ofList text) n := by
  obtain ⟨digits, hdigits, hne, hlt, hvalue⟩ := Text.exists_digits style.one_lt_base n
  have hzeros : ∀ digit ∈ List.replicate zeros 0, digit < style.base := fun digit hdigit => by
    rw [List.eq_of_mem_replicate hdigit]
    exact Nat.zero_lt_of_lt style.one_lt_base
  refine ⟨style, false, List.replicate zeros 0 ++ digits, ⟨cs, text, ?_, hspaced, rfl⟩, by simp [hne], ?_⟩
  · refine Text.forall₂_showsDigit (List.forall_mem_append.mpr ⟨hzeros, hlt⟩) ?_
    rw [h, hdigits, List.map_append, List.map_replicate]
    rfl
  · rw [List.reverse_append, List.reverse_replicate, Nat.ofDigits_append_replicate_zero, hvalue]

theorem denotes_hexadecimal (n digits : Nat) : Denotes (Text.hexadecimal n digits) n := by
  have hlower : (List.replicate (digits - (Nat.toDigits 16 n).length) '0' ++ Nat.toDigits 16 n).map Char.toLower =
      List.replicate (digits - (Nat.toDigits 16 n).length) '0' ++ Nat.toDigits Style.lowerMarker.base n := by
    rw [List.map_append, List.map_replicate, Text.map_toLower_toDigits (by decide) (by decide)]
    rfl
  exact denotes_of_toDigits hlower (.refl _)

/-! ### Reading words -/

/-- Behind the marker of a style a number of its base is read. In decimal the digits must not look like a marker. -/
theorem parse_marker_append {style : Style} {rest : List Char}
    (h : style = .decimal → 'x' ∉ rest ∧ 'X' ∉ rest) :
    parse (style.marker ++ String.ofList rest) =
      (readNumeral style.base (rest.filter (· != '_'))).map (BitVec.ofNat 32) := by
  cases style with
  | decimal =>
    obtain ⟨hlower, hupper⟩ := h rfl
    have htext : (Style.decimal.marker ++ String.ofList rest).toList = rest := by simp [Style.marker]
    rw [parse, htext]
    split
    · simp at hlower
    · simp at hupper
    · rfl
  | lowerMarker | upperMarker => simp [parse, Style.marker, Style.base]

/-- Every text is read in one of the styles. -/
theorem exists_marker_append (text : String) :
    ∃ (style : Style) (rest : List Char), text = style.marker ++ String.ofList rest ∧
      parse text = (readNumeral style.base (rest.filter (· != '_'))).map (BitVec.ofNat 32) := by
  rw [parse]
  split
  · next rest hrest => exact ⟨.lowerMarker, rest, by simp [← String.toList_inj, Style.marker, hrest], rfl⟩
  · next rest hrest => exact ⟨.upperMarker, rest, by simp [← String.toList_inj, Style.marker, hrest], rfl⟩
  · exact ⟨.decimal, text.toList, by simp [Style.marker], rfl⟩

theorem parse_of_shows {style : Style} {plus : Bool} {digits : List Nat} {text : String}
    (h : style.Shows plus digits text) :
    parse text =
      if digits = [] then .error (if plus then .invalidDigit else .empty)
      else if 2 ^ 32 ≤ Nat.ofDigits style.base digits.reverse then .error .tooLarge
      else .ok (BitVec.ofNat 32 (Nat.ofDigits style.base digits.reverse)) := by
  obtain ⟨cs, rest, hdigits, hspaced, rfl⟩ := h
  have hother {c : Char} (hc : Text.digitValue? style.base c = none) (hplus : c ≠ '+') : c ∉ signed plus cs := by
    have hcs := Text.notMem_of_digitValue?_eq_none style.base_le hc hdigits
    cases plus <;> simp [signed, hcs, hplus]
  have hunderscore : '_' ∉ signed plus cs := hother rfl (by decide)
  have hmarker : style = .decimal → 'x' ∉ rest ∧ 'X' ∉ rest := by
    rintro rfl
    have hx : 'x' ∉ signed plus cs := hother rfl (by decide)
    have hX : 'X' ∉ signed plus cs := hother rfl (by decide)
    refine ⟨fun h => ?_, fun h => ?_⟩
    · exact (hspaced.eq_underscore_or_mem h).elim (by decide) hx
    · exact (hspaced.eq_underscore_or_mem h).elim (by decide) hX
  have hlimit : wordLimit = 2 ^ 32 := rfl
  rw [parse_marker_append hmarker, hspaced.filter_eq hunderscore, readNumeral_signed style.base_le hdigits, hlimit]
  split
  · rfl
  · split <;> rfl

theorem parse_of_denotes {text : String} {n : Nat} (h : Denotes text n) :
    parse text = if 2 ^ 32 ≤ n then .error .tooLarge else .ok (BitVec.ofNat 32 n) := by
  obtain ⟨style, plus, digits, hshows, hne, rfl⟩ := h
  rw [parse_of_shows hshows, if_neg hne]

theorem exists_denotes_of_parse {text : String} {word : Word} (h : parse text = .ok word) :
    ∃ n, Denotes text n := by
  obtain ⟨style, rest, htext, hparse⟩ := exists_marker_append text
  rw [hparse] at h
  obtain ⟨n, hn⟩ : ∃ n, readNumeral style.base (rest.filter (· != '_')) = .ok n := by
    cases hread : readNumeral style.base (rest.filter (· != '_')) with
    | error fault =>
      rw [hread] at h
      cases h
    | ok n => exact ⟨n, rfl⟩
  obtain ⟨plus, cs, hcs, hne, hread⟩ := exists_signed_of_readNumeral hn
  obtain ⟨digits, hdigits⟩ := exists_showsDigit_of_readDigits style.base_le hread
  have hspaced : Spaced (signed plus cs) rest := hcs ▸ .of_filter rest
  refine ⟨_, style, plus, digits, ⟨cs, rest, hdigits, hspaced, htext⟩, ?_, rfl⟩
  rintro rfl
  cases hdigits
  exact hne rfl

/-- A text is read as a word exactly if it stands for the number of the word. -/
theorem parse_eq_ok_iff {text : String} {word : Word} : parse text = .ok word ↔ Denotes text word.toNat := by
  constructor
  · intro h
    obtain ⟨n, hn⟩ := exists_denotes_of_parse h
    rw [parse_of_denotes hn] at h
    split at h
    · cases h
    · next hlimit =>
      cases h
      rwa [BitVec.toNat_ofNat, Nat.mod_eq_of_lt (Nat.lt_of_not_le hlimit)]
  · intro h
    rw [parse_of_denotes h, if_neg (Nat.not_le_of_lt word.isLt), BitVec.ofNat_toNat, BitVec.setWidth_eq]

/-- A word is read from its digits, also behind zeros, in either case and with underscores, and so from the line that is
printed for it. Numbers of more than 32 bits and texts without a digit are refused, and no other text is read as the
word. -/
theorem parse_written_digits (word : Word) :
    (∀ (style : Style) (zeros : Nat) (cs text : List Char),
      cs.map Char.toLower = List.replicate zeros '0' ++ Nat.toDigits style.base word.toNat → Spaced cs text →
        parse (style.marker ++ String.ofList text) = .ok word) ∧
    (∀ table : Table, ∃ shown,
      Plan.decodedLine table word = shown ++ ": " ++ (table.decode word 4).text ∧ parse shown = .ok word) ∧
    (∀ text n, Denotes text n → 2 ^ 32 ≤ n → parse text = .error .tooLarge) ∧
    (∀ (style : Style) plus text, style.Shows plus [] text →
      parse text = .error (if plus then .invalidDigit else .empty)) ∧
    ∀ text, parse text = .ok word ↔ Denotes text word.toNat := by
  refine ⟨fun _ _ _ _ h hspaced => parse_eq_ok_iff.mpr (denotes_of_toDigits h hspaced), fun table => ?_,
    fun text n h hn => ?_, fun style plus text h => ?_, fun _ => parse_eq_ok_iff⟩
  · exact ⟨_, rfl, parse_eq_ok_iff.mpr (denotes_hexadecimal word.toNat 8)⟩
  · rw [parse_of_denotes h, if_pos hn]
  · rw [parse_of_shows h, if_pos rfl]

/-- A word in hexadecimal and in decimal, the first number that is too large, and a marker without digits. -/
theorem parse_written_digits_edges :
    ("00DeadBEEF".toList.map Char.toLower = List.replicate 2 '0' ++ Nat.toDigits Style.upperMarker.base 0xdeadbeef ∧
      Spaced "00DeadBEEF".toList "_00De_ad__BEEF_".toList ∧ parse "0X_00De_ad__BEEF_" = .ok 0xdeadbeef#32) ∧
    ("3735928559".toList.map Char.toLower = List.replicate 0 '0' ++ Nat.toDigits Style.decimal.base 0xdeadbeef ∧
      Spaced "3735928559".toList "3_735_928_559".toList ∧ parse "3_735_928_559" = .ok 0xdeadbeef#32) ∧
    (Denotes "+4_294_967_296" (2 ^ 32) ∧ parse "+4_294_967_296" = .error .tooLarge) ∧
    (Style.lowerMarker.Shows false [] "0x__" ∧ parse "0x__" = .error .empty) := by
  obtain ⟨hword, _, hlarge, hempty, _⟩ := parse_written_digits 0xdeadbeef#32
  have hhex : Spaced "00DeadBEEF".toList "_00De_ad__BEEF_".toList := .of_filter "_00De_ad__BEEF_".toList
  have hdecimal : Spaced "3735928559".toList "3_735_928_559".toList := .of_filter "3_735_928_559".toList
  have hlimit : Denotes "+4_294_967_296" (2 ^ 32) := by
    refine ⟨.decimal, true, [4, 2, 9, 4, 9, 6, 7, 2, 9, 6], ⟨"4294967296".toList, "+4_294_967_296".toList, ?_,
      .of_filter "+4_294_967_296".toList, by decide⟩, by decide, by decide⟩
    exact Text.forall₂_showsDigit (by decide) (by decide)
  have hnone : Style.lowerMarker.Shows false [] "0x__" := ⟨[], ['_', '_'], .nil, .of_filter ['_', '_'], by decide⟩
  exact ⟨⟨by decide, hhex, hword .upperMarker 2 _ _ (by decide) hhex⟩,
    ⟨by decide, hdecimal, hword .decimal 0 _ _ (by decide) hdecimal⟩,
    ⟨hlimit, hlarge _ _ hlimit (by decide)⟩, ⟨hnone, hempty _ _ _ hnone⟩⟩

end IsaForge.Word
