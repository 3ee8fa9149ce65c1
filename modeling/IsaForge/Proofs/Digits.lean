import IsaForge.Text.Numeral
import Mathlib.Data.List.Forall2
import Mathlib.Data.Nat.Digits.Defs
import Mathlib.Tactic.IntervalCases
import Mathlib.Tactic.Ring

/-!
Digits and the numbers that they stand for. `ShowsDigit` says which characters stand for a digit. `exists_digits` gives
the digits that a number is written with, and `readDigits_of_showsDigit` the number that is read from digits, so that
what is written is read back (`readDigits_toDigits`).
-/

namespace IsaForge.Text

/-! ### Characters of digits -/

/-- A character that stands for a digit of a base, a letter in either case. -/
def ShowsDigit (base digit : Nat) (c : Char) : Prop :=
  digit < base ∧ c.toLower = digit.digitChar

theorem toNat_toLower (c : Char) :
    c.toLower.toNat = if 'A'.toNat ≤ c.toNat ∧ c.toNat ≤ 'Z'.toNat then c.toNat + 32 else c.toNat := by
  have hrange : 'A'.val ≤ c.val ∧ c.val ≤ 'Z'.val ↔ 'A'.toNat ≤ c.toNat ∧ c.toNat ≤ 'Z'.toNat :=
    and_congr UInt32.le_iff_toNat_le UInt32.le_iff_toNat_le
  by_cases h : 'A'.val ≤ c.val ∧ c.val ≤ 'Z'.val
  · have hval : c.toLower.val = c.val + ('a'.val - 'A'.val) := congrArg Char.val (dif_pos h)
    have hle : c.val.toNat ≤ 90 := (hrange.mp h).2
    rw [if_pos (hrange.mp h), Char.toNat, hval]
    show (c.val.toNat + 32) % 2 ^ 32 = c.val.toNat + 32
    omega
  · have hsame : c.toLower = c := dif_neg h
    rw [if_neg (mt hrange.mpr h), hsame]

theorem toNat_digitChar {digit : Nat} (h : digit < 16) :
    digit.digitChar.toNat = if digit < 10 then digit + '0'.toNat else digit - 10 + 'a'.toNat := by
  interval_cases digit <;> rfl

theorem digitValue?_eq_some_iff {base digit : Nat} {c : Char} (hbase : base ≤ 16) :
    digitValue? base c = some digit ↔ ShowsDigit base digit c := by
  have hchar : digit < base → (c.toLower = digit.digitChar ↔ c.toLower.toNat =
      if digit < 10 then digit + '0'.toNat else digit - 10 + 'a'.toNat) := by
    intro hdigit
    rw [← toNat_digitChar (Nat.lt_of_lt_of_le hdigit hbase), Char.toNat_inj]
  have hle (a b : Char) : a ≤ b ↔ a.toNat ≤ b.toNat := UInt32.le_iff_toNat_le
  simp only [digitValue?, Option.filter_eq_some_iff, ShowsDigit, and_congr_left_iff, decide_eq_true_eq,
    and_comm (a := digit < base)]
  intro hdigit
  rw [hchar hdigit, toNat_toLower]
  simp only [Bool.and_eq_true, decide_eq_true_eq, hle, Char.reduceToNat]
  -- both sides are now about the range in which the number of the character is
  grind

variable {base : Nat} {digits : List Nat} {cs : List Char}

theorem notMem_of_digitValue?_eq_none {c : Char} (hbase : base ≤ 16) (hc : digitValue? base c = none)
    (h : List.Forall₂ (ShowsDigit base) digits cs) : c ∉ cs := by
  induction h with
  | nil => exact List.not_mem_nil
  | cons hd _ ih =>
    rw [List.mem_cons, not_or]
    refine ⟨?_, ih⟩
    rintro rfl
    rw [(digitValue?_eq_some_iff hbase).mpr hd] at hc
    cases hc

/-! ### Numbers in digits -/

/-- The digits that a number is written with. -/
theorem exists_digits (hbase : 1 < base) (n : Nat) :
    ∃ digits, Nat.toDigits base n = digits.map Nat.digitChar ∧ digits ≠ [] ∧ (∀ digit ∈ digits, digit < base) ∧
      Nat.ofDigits base digits.reverse = n := by
  induction n using Nat.strongRecOn with
  | ind n ih =>
    by_cases hn : n < base
    · exact ⟨[n], Nat.toDigits_of_lt_base hn, by simp [hn]⟩
    · have hle := Nat.le_of_not_lt hn
      obtain ⟨digits, hdigits, _, hlt, hvalue⟩ := ih (n / base) (Nat.div_lt_self (by omega) hbase)
      refine ⟨digits ++ [n % base], ?_, by simp, ?_, ?_⟩
      · rw [Nat.toDigits_of_base_le hbase hle, hdigits, List.map_append, List.map_singleton]
      · rw [List.forall_mem_append, List.forall_mem_singleton]
        exact ⟨hlt, Nat.mod_lt n (by omega)⟩
      · rw [List.reverse_append, List.reverse_singleton, List.singleton_append, Nat.ofDigits_cons, hvalue]
        exact Nat.mod_add_div n base

theorem forall₂_showsDigit (hlt : ∀ digit ∈ digits, digit < base)
    (h : cs.map Char.toLower = digits.map Nat.digitChar) : List.Forall₂ (ShowsDigit base) digits cs := by
  induction digits generalizing cs with
  | nil =>
    rw [List.map_nil, List.map_eq_nil_iff] at h
    rw [h]
    exact .nil
  | cons digit digits ih =>
    obtain ⟨hdigit, hlt⟩ := List.forall_mem_cons.mp hlt
    obtain ⟨c, cs, rfl, hc, hcs⟩ := List.map_eq_cons_iff.mp h
    exact .cons ⟨hdigit, hc⟩ (ih hlt hcs)

theorem exists_digitChar_of_mem_toDigits {n : Nat} {c : Char} (hbase : 1 < base) (h : c ∈ Nat.toDigits base n) :
    ∃ digit < base, c = Nat.digitChar digit := by
  obtain ⟨digits, hdigits, _, hlt, _⟩ := exists_digits hbase n
  rw [hdigits] at h
  obtain ⟨digit, hdigit, rfl⟩ := List.mem_map.mp h
  exact ⟨digit, hlt digit hdigit, rfl⟩

theorem map_toLower_toDigits (hbase : 1 < base) (hle : base ≤ 16) (n : Nat) :
    (Nat.toDigits base n).map Char.toLower = Nat.toDigits base n := by
  have hall : ∀ digit < 16, digit.digitChar.toLower = digit.digitChar := by decide
  have hsame : ∀ c ∈ Nat.toDigits base n, c.toLower = id c := by
    intro c hc
    obtain ⟨digit, hdigit, rfl⟩ := exists_digitChar_of_mem_toDigits hbase hc
    exact hall digit (Nat.lt_of_lt_of_le hdigit hle)
  rw [List.map_congr_left hsame, List.map_id]

theorem toDigits_ten_injective {m n : Nat} (h : Nat.toDigits 10 m = Nat.toDigits 10 n) : m = n :=
  calc
    m = Nat.ofDigitChars 10 (Nat.toDigits 10 m) 0 := Nat.ofDigitChars_ten_toDigits.symm
    _ = Nat.ofDigitChars 10 (Nat.toDigits 10 n) 0 := by rw [h]
    _ = n := Nat.ofDigitChars_ten_toDigits

/-- The number that digits stand for behind others that stand for `value`. -/
def valueAfter (base value : Nat) (digits : List Nat) : Nat :=
  value * base ^ digits.length + Nat.ofDigits base digits.reverse

theorem valueAfter_nil (base value : Nat) : valueAfter base value [] = value := by
  simp [valueAfter]

theorem valueAfter_zero (base : Nat) (digits : List Nat) :
    valueAfter base 0 digits = Nat.ofDigits base digits.reverse := by
  simp [valueAfter]

theorem valueAfter_cons (base value digit : Nat) (digits : List Nat) :
    valueAfter base value (digit :: digits) = valueAfter base (value * base + digit) digits := by
  rw [valueAfter, valueAfter, Nat.ofDigits_reverse_cons, List.length_cons]
  ring

theorem le_valueAfter (hbase : 0 < base) (value : Nat) (digits : List Nat) : value ≤ valueAfter base value digits :=
  calc
    value ≤ value * base ^ digits.length := Nat.le_mul_of_pos_right value (Nat.pow_pos hbase)
    _ ≤ valueAfter base value digits := Nat.le_add_right _ _

/-! ### Reading digits back -/

theorem readDigits_of_showsDigit (hbase : base ≤ 16) (h : List.Forall₂ (ShowsDigit base) digits cs) (value : Nat) :
    readDigits base value cs = some (valueAfter base value digits) := by
  induction h generalizing value with
  | nil => rw [readDigits, valueAfter_nil]
  | cons hc _ ih =>
    rw [readDigits, (digitValue?_eq_some_iff hbase).mpr hc, valueAfter_cons]
    exact ih _

/-- Hexadecimal digits are read back. -/
theorem readDigits_toDigits (n : Nat) : readDigits 16 0 (Nat.toDigits 16 n) = some n := by
  obtain ⟨digits, hdigits, _, hlt, hvalue⟩ := exists_digits (by decide : 1 < 16) n
  have hshows : List.Forall₂ (ShowsDigit 16) digits (Nat.toDigits 16 n) := by
    refine forall₂_showsDigit hlt ?_
    rw [map_toLower_toDigits (by decide) (by decide), hdigits]
  rw [readDigits_of_showsDigit (by decide) hshows, valueAfter_zero, hvalue]

end IsaForge.Text
