import IsaForge.Proofs.RecordText
import IsaForge.Proofs.Resolution

/-!
Operand lists as text. Every well-formed operand is read back from its text (`Operand.parse_entry`), and a list of them with
commas in between is read back whatever gaps are around the commas (`PlacedOperand.readAll_listText`). `Operand.Legal` says,
by the values of the numerals and the bits of the declared fields, which operands an instruction can have, and
`Operand.Means` what each of them puts into its slot; an operand resolves exactly to what it means if it is legal
(`Operand.slot_eq_ok_iff`).
-/

namespace IsaForge

open Grammar Peg Text
open Record (isGap_cases skip_of_stops readAll_of_parse toNat_of_isNameStart)

/-! ### Well-formed operands -/

/-- The numerals and the name of a selector are such. -/
def Selector.WellFormed : Selector → Prop
  | .range hi lo? => Component.WellFormed ⟨hi, lo?⟩
  | .named name => IsName name

instance : DecidablePred Selector.WellFormed
  | .range hi lo? => inferInstanceAs (Decidable (Component.WellFormed ⟨hi, lo?⟩))
  | .named name => inferInstanceAs (Decidable (IsName name))

/-- A non-empty run of letters. -/
def IsLetters (letters : String) : Prop :=
  letters.toList ≠ [] ∧ ∀ c ∈ letters.toList, c.isAlpha = true

instance (letters : String) : Decidable (IsLetters letters) :=
  @instDecidableAnd _ _ inferInstance (List.decidableBAll _ _)

/-- An operand that can be written. -/
def Operand.WellFormed : Operand → Prop
  | .absent => True
  | .constant digits => IsNumeral digits
  | .field letters selector bias? => IsLetters letters ∧ selector.WellFormed ∧ ∀ bias ∈ bias?, IsNumeral bias

instance : DecidablePred Operand.WellFormed
  | .absent => inferInstanceAs (Decidable True)
  | .constant digits => inferInstanceAs (Decidable (IsNumeral digits))
  | .field _ _ _ => inferInstanceAs (Decidable (_ ∧ _ ∧ _))

theorem isNameStart_of_isAlpha {c : Char} (h : c.isAlpha = true) : isNameStart c = true := by
  rw [isNameStart, h, Bool.true_or]

theorem isDigit_of_isNameStart {c : Char} (h : isNameStart c = true) : c.isDigit = false := by
  have hle := (toNat_of_isNameStart h).1
  rw [isDigit_eq, Bool.and_eq_false_iff]
  refine .inr (decide_eq_false fun hc => ?_)
  have hc : c.toNat ≤ '9'.toNat := UInt32.le_iff_toNat_le.mp hc
  simp only [Char.reduceToNat] at hc
  omega

theorem IsLetters.stops {letters : String} (h : IsLetters letters) {accepts : Char → Bool}
    (haccepts : ∀ c, isNameStart c = true → accepts c = false) (rest : List Char) :
    Stops accepts (letters.toList ++ rest) :=
  .run h.1 h.2 (fun c hc => haccepts c (isNameStart_of_isAlpha hc)) rest

namespace Operand

/-! ### Reading one operand -/

/-- One entry of an operand list. -/
def entry : Peg Rule Operand :=
  .choice noOperand (.choice constantNumber registerField)

theorem operandList_eq :
    operandList = .rule .operandList .spaced
      (.before .start (.after
        (.map (fun (first, others) => first :: others) (.seq entry (.many (.before (.exactly ',') entry))))
        Grammar.finish)) := rfl

theorem parse_bitRange_eq (mode : RuleKind) (cs : List Char) :
    bitRange.parse mode cs = (Pattern.component.parse mode cs).map fun x => (.range x.1.hi x.1.lo?, x.2) := by
  rw [bitRange, Pattern.component, parse_rule, parse_rule, parse_map, parse_map, Option.map_map]
  rfl

theorem parse_selector {selector : Selector} (hselector : selector.WellFormed) (rest : List Char) :
    (choice bitRange (map .named identifier) : Peg Rule Selector).parse .joined
      (selector.text.toList ++ ']' :: rest) = some (selector, ']' :: rest) := by
  rw [parse_choice, parse_bitRange_eq]
  cases selector with
  | range hi lo? =>
    have htext : (Selector.range hi lo?).text = Component.text ⟨hi, lo?⟩ := by cases lo? <;> rfl
    rw [htext, Pattern.parse_component hselector (.cons rfl)]
    rfl
  | named name =>
    have hdigits : Stops Char.isDigit (name.toList ++ ']' :: rest) :=
      IsName.stops hselector (fun c => isDigit_of_isNameStart) _
    have hcomponent : Pattern.component.parse .joined (name.toList ++ ']' :: rest) = none := by
      rw [Pattern.component, parse_rule, parse_map, parse_seq, number, parse_rule, parse_map,
        parse_several_char_none hdigits]
      rfl
    rw [Selector.text, hcomponent, parse_map, parse_identifier hselector (.cons rfl)]
    rfl

/-- What is written behind the bracket of a field. -/
def biasText (bias? : Option String) : List Char :=
  bias?.elim [] fun bias => '+' :: bias.toList

/-- The characters that can go on with an operand. -/
def continues (c : Char) : Bool :=
  c.isDigit || c == '+'

theorem parse_behind {α : Type} (c : Char) (item : Peg Rule α) (cs : List Char) :
    (before (exactly c) item).parse .joined (c :: cs) = item.parse .joined cs := by
  rw [parse_before, parse_exactly_self]
  rfl

theorem parse_bias {bias? : Option String} (hbias : ∀ bias ∈ bias?, IsNumeral bias) {rest : List Char}
    (hrest : Stops continues rest) :
    (optional bias).parse .joined (biasText bias? ++ rest) = some (bias?, rest) := by
  obtain ⟨hdigit, hplus⟩ := hrest.of_or
  rw [parse_optional, bias, parse_rule]
  show some (((before (exactly '+') number : Peg Rule String).parse .joined _).elim _ _) = _
  cases bias? with
  | none =>
    rw [show biasText none ++ rest = rest from rfl, parse_before, exactly, parse_char_none hplus]
    rfl
  | some digits =>
    rw [show biasText (some digits) ++ rest = '+' :: (digits.toList ++ rest) from rfl, parse_behind,
      parse_number (hbias digits rfl) hdigit]
    rfl

theorem toList_field (letters : String) (selector : Selector) (bias? : Option String) :
    (Operand.field letters selector bias?).text.toList =
      letters.toList ++ '[' :: (selector.text.toList ++ ']' :: biasText bias?) := by
  cases bias? <;> simp [Operand.text, biasText]

theorem parse_registerField {letters : String} {selector : Selector} {bias? : Option String}
    (hoperand : (Operand.field letters selector bias?).WellFormed) {rest : List Char}
    (hrest : Stops continues rest) :
    registerField.parse .spaced ((Operand.field letters selector bias?).text.toList ++ rest) =
      some (.field letters selector bias?, rest) := by
  obtain ⟨⟨hne, halpha⟩, hselector, hbias⟩ := hoperand
  have hletters (rest : List Char) :
      Operand.letters.parse .joined (letters.toList ++ '[' :: rest) = some (letters, '[' :: rest) := by
    rw [Operand.letters, parse_rule, parse_map, parse_several_char (by decide) hne halpha (.cons rfl), Option.map_some,
      String.ofList_toList]
  have hbracket : (before (exactly '[') (seq (choice bitRange (map .named identifier))
      (before (exactly ']') (optional bias)))).parse .joined
        ('[' :: (selector.text.toList ++ ']' :: (biasText bias? ++ rest))) = some ((selector, bias?), rest) := by
    rw [parse_behind]
    refine parse_seq_of (parse_selector hselector _) ?_
    show (before (exactly ']') (optional bias) : Peg Rule (Option String)).parse .joined (']' :: _) = _
    rw [parse_behind, parse_bias hbias hrest]
  rw [registerField, parse_rule, parse_map, toList_field, List.append_assoc, List.cons_append, List.append_assoc,
    List.cons_append]
  exact congrArg _ (parse_seq_of (hletters _) hbracket)

theorem parse_noOperand_none {cs : List Char} (h : Stops (· == '-') cs) : noOperand.parse .spaced cs = none := by
  rw [noOperand, parse_rule, parse_map, exactly, parse_char_none h]
  rfl

/-- An operand is read back from its text if what follows cannot go on with it. -/
theorem parse_entry {operand : Operand} (hoperand : operand.WellFormed) {rest : List Char}
    (hrest : Stops continues rest) :
    entry.parse .spaced (operand.text.toList ++ rest) = some (operand, rest) := by
  rw [entry, parse_choice, parse_choice]
  cases operand with
  | absent => rfl
  | constant digits =>
    rw [text, parse_noOperand_none (hoperand.stops (fun c hc => beq_of_accepts hc rfl) rest), constantNumber,
      parse_rule, parse_map, parse_several_char (by decide) hoperand.1 hoperand.2 hrest.of_or.1]
    simp
  | field letters selector bias? =>
    have hstops {accepts : Char → Bool} (haccepts : ∀ c, isNameStart c = true → accepts c = false) :
        Stops accepts ((Operand.field letters selector bias?).text.toList ++ rest) := by
      rw [toList_field, List.append_assoc]
      exact hoperand.1.stops haccepts _
    have hconstant : constantNumber.parse .spaced ((Operand.field letters selector bias?).text.toList ++ rest) =
        none := by
      rw [constantNumber, parse_rule, parse_map, parse_several_char_none (hstops fun c => isDigit_of_isNameStart)]
      rfl
    rw [parse_noOperand_none (hstops fun c hc => beq_of_accepts hc rfl), hconstant,
      parse_registerField hoperand hrest]
    rfl

theorem WellFormed.stops_isGap {operand : Operand} (hoperand : operand.WellFormed) (rest : List Char) :
    Stops isGap (operand.text.toList ++ rest) := by
  cases operand with
  | absent => exact .cons rfl
  | constant digits => exact IsNumeral.stops hoperand (fun c hc => isGap_of_accepts hc rfl rfl) rest
  | field letters selector bias? =>
    rw [toList_field, List.append_assoc]
    exact hoperand.1.stops (fun c => isGap_of_isNameStart) _

end Operand

/-! ### Reading a list -/

/-- An operand with the gaps on its two sides. -/
structure PlacedOperand where
  before : List Char := []
  operand : Operand
  behind : List Char := []

namespace PlacedOperand

structure WellFormed (placed : PlacedOperand) : Prop where
  before : IsGap placed.before
  operand : placed.operand.WellFormed
  behind : IsGap placed.behind

instance (placed : PlacedOperand) : Decidable placed.WellFormed :=
  decidable_of_iff (IsGap placed.before ∧ placed.operand.WellFormed ∧ IsGap placed.behind)
    ⟨fun ⟨hbefore, hoperand, hbehind⟩ => ⟨hbefore, hoperand, hbehind⟩, fun h => ⟨h.before, h.operand, h.behind⟩⟩

def text (placed : PlacedOperand) : String :=
  String.ofList placed.before ++ placed.operand.text ++ String.ofList placed.behind

/-- Operands with commas in between. -/
def listText (placed : List PlacedOperand) : String :=
  String.intercalate "," (placed.map text)

/-- What is written behind the first operand of a list. -/
def othersText (others : List PlacedOperand) : List Char :=
  others.flatMap fun other => ',' :: other.text.toList

theorem toList_listText_cons (first : PlacedOperand) (others : List PlacedOperand) :
    (listText (first :: others)).toList =
      first.before ++ (first.operand.text.toList ++ (first.behind ++ othersText others)) := by
  rw [listText, List.map_cons, toList_intercalate_cons, List.flatMap_map, text]
  simp [othersText]

theorem stops_behind {gap : List Char} (hgap : IsGap gap) (others : List PlacedOperand) :
    Stops Operand.continues (gap ++ othersText others) := by
  cases gap with
  | nil =>
    cases others with
    | nil => exact .nil
    | cons other others => exact .cons rfl
  | cons c gap =>
    rcases isGap_cases (hgap c List.mem_cons_self) with rfl | rfl
    · exact .cons rfl
    · exact .cons rfl

theorem stops_othersText (others : List PlacedOperand) : Stops isGap (othersText others) := by
  cases others with
  | nil => exact .nil
  | cons other others => exact .cons rfl

/-- The operands behind the first are read one after the other, each with the gaps in front of it and of its comma. -/
theorem steps_others {others : List PlacedOperand} (hothers : ∀ other ∈ others, other.WellFormed) (gap : List Char)
    (hgap : IsGap gap) :
    ∃ left, IsGap left ∧
      Steps (fun cs => (Peg.before (exactly ',') Operand.entry : Peg Rule Operand).parse .spaced (RuleKind.spaced.skip cs))
        (gap ++ othersText others) (others.map operand) left := by
  induction others generalizing gap with
  | nil =>
    refine ⟨gap, hgap, ?_⟩
    rw [othersText, List.flatMap_nil, List.append_nil]
    refine .stop ?_
    have hskip : RuleKind.spaced.skip gap = [] := by
      simpa using skip_gap hgap .nil
    rw [hskip, parse_before, exactly, parse_char_nil]
    rfl
  | cons other others ih =>
    obtain ⟨hother, hothers⟩ := List.forall_mem_cons.mp hothers
    obtain ⟨left, hleft, hsteps⟩ := ih hothers other.behind hother.behind
    refine ⟨left, hleft, .more ?_ hsteps⟩
    have htext : othersText (other :: others) =
        ',' :: (other.before ++ (other.operand.text.toList ++ (other.behind ++ othersText others))) := by
      simp [othersText, text]
    rw [skip_gap hgap (stops_othersText _), htext, parse_before, parse_exactly_self, Option.bind_some,
      skip_gap hother.before (hother.operand.stops_isGap _)]
    exact Operand.parse_entry hother.operand (stops_behind hother.behind others)

/-- A list of operands is read back, whatever gaps it is written with. -/
theorem readAll_listText {placed : List PlacedOperand} (hne : placed ≠ [])
    (hplaced : ∀ entry ∈ placed, entry.WellFormed) :
    readAll Operand.operandList (listText placed).toList = .ok (placed.map operand) := by
  obtain ⟨first, others, rfl⟩ := List.exists_cons_of_ne_nil hne
  obtain ⟨hfirst, hothers⟩ := List.forall_mem_cons.mp hplaced
  obtain ⟨left, hleft, hsteps⟩ := steps_others hothers [] nofun
  have hmany : (many (Peg.before (exactly ',') Operand.entry) : Peg Rule (List Operand)).parse .spaced
      (RuleKind.spaced.skip (first.behind ++ othersText others)) = some (others.map operand, left) := by
    rw [skip_gap hfirst.behind (stops_othersText others)]
    exact parse_many_steps rfl (skip_of_stops (stops_othersText others)) hsteps
  have hentries := parse_seq_of (Operand.parse_entry hfirst.operand (stops_behind hfirst.behind others)) hmany
  have hend : RuleKind.spaced.skip left = [] := by
    simpa using skip_gap hleft .nil
  have hparse : Operand.operandList.parse .spaced (listText (first :: others)).toList =
      some (first.operand :: others.map operand, []) := by
    rw [Operand.operandList_eq, parse_rule, toList_listText_cons]
    show (Peg.before start _ : Peg Rule (List Operand)).parse .spaced _ = _
    rw [parse_before, parse_start, Option.bind_some, skip_gap hfirst.before (hfirst.operand.stops_isGap _),
      parse_after, parse_map, hentries, Option.map_some, Option.bind_some, hend, Grammar.finish, parse_finish]
    rfl
  exact readAll_of_parse hparse

end PlacedOperand

/-! ### Declared fields -/

/-- The registry that declaring the given fields, the last one first, gives. Every field has a bit. -/
inductive FieldRegistry.Built : FieldRegistry → List NamedField → Prop
  | nil : Built [] []
  | register {registry registry' : FieldRegistry} {declared : List NamedField} {line : Nat} {field : NamedField} :
    Built registry declared → 0 < field.width → registry.register line field = .ok registry' →
      Built registry' (field :: declared)

/-- The bits of a range are those of the field. -/
def NamedField.Occupies (field : NamedField) (range : BitRange) : Prop :=
  range.lo = field.position ∧ range.hi + 1 = field.position + field.width

theorem NamedField.range_eq_iff {field : NamedField} (hpos : 0 < field.width) (range : BitRange) :
    field.range = range ↔ field.Occupies range := by
  obtain ⟨hi, lo⟩ := range
  simp only [NamedField.range, NamedField.Occupies, BitRange.mk.injEq]
  omega

theorem FieldRegistry.Built.rangeOf?_eq_some_iff {registry : FieldRegistry} {declared : List NamedField}
    (H : registry.Built declared) (name : String) (range : BitRange) :
    registry.rangeOf? name = some range ↔ ∃ field ∈ declared, field.name = name ∧ field.Occupies range := by
  induction H with
  | nil => exact ⟨nofun, nofun⟩
  | @register registry registry' declared line field _ hpos hregister ih =>
    rw [rangeOf?_register hregister, ih, NamedField.range_eq_iff hpos, List.exists_mem_cons_iff, or_comm]

/-! ### What operands mean -/

/-- The bits that a selector names, where the given fields are declared. -/
def Selector.Selects (declared : List NamedField) (range : BitRange) : Selector → Prop
  | .range hi lo? => range.hi = numeralValue hi ∧ range.lo = numeralValue (lo?.getD hi)
  | .named name => ∃ field ∈ declared, field.name = name ∧ field.Occupies range

/-- The letters of an operand name a kind of registers. -/
def RegisterClass.NamedBy (letters : String) : RegisterClass → Prop
  | .generalPurpose => letters = "x"
  | .floatingPoint => letters = "f" ∨ letters = "d"

namespace Operand

/-- The number that is added to the one in the bits of a field. -/
def biasOf (bias? : Option String) : Nat :=
  bias?.elim 0 numeralValue

/-- An operand that an instruction of the given width can have, where the given fields are declared: no register number
that it can give is the one for no register, or a larger one. -/
def Legal (width : Width) (declared : List NamedField) : Operand → Prop
  | .absent => True
  | .constant digits => numeralValue digits ≤ 254
  | .field letters selector bias? =>
    (letters = "x" ∨ letters = "f" ∨ letters = "d") ∧
      ∃ range, selector.Selects declared range ∧ range.lo ≤ range.hi ∧ range.hi < width.bits ∧
        2 ^ (range.hi - range.lo + 1) - 1 + biasOf bias? ≤ 254

/-- What an operand puts into its slot. -/
def Means (declared : List NamedField) : Operand → Slot → Prop
  | .absent, s => s = .none
  | .constant digits, s => ∃ register, s = .literal register ∧ register.toNat = numeralValue digits
  | .field letters selector bias?, s =>
    ∃ registerClass range offset, s = .field registerClass range offset ∧ registerClass.NamedBy letters ∧
      selector.Selects declared range ∧ offset.toNat = biasOf bias?

theorem index_eq_ok_iff {digits : String} (hdigits : IsNumeral digits) {n : Nat} :
    index digits = .ok n ↔ n = numeralValue digits ∧ n < wordLimit := by
  have hread : index digits = .ok n ↔ readIndex? digits = some n := by
    rw [index]
    cases readIndex? digits <;> simp
  rw [hread, readIndex?_eq_some_iff, and_iff_right hdigits.2]

theorem biasValue_eq_ok_iff {bias? : Option String} (hbias : ∀ bias ∈ bias?, IsNumeral bias) {n : Nat} :
    biasValue bias? = .ok n ↔ n = biasOf bias? ∧ n < wordLimit := by
  cases bias? with
  | none =>
    constructor
    · intro h
      cases h
      exact ⟨rfl, by decide⟩
    · rintro ⟨rfl, -⟩
      rfl
  | some digits => exact index_eq_ok_iff (hbias digits rfl)

theorem ofLetters?_eq_some_iff {letters : String} {registerClass : RegisterClass} :
    RegisterClass.ofLetters? letters = some registerClass ↔ registerClass.NamedBy letters := by
  rw [RegisterClass.ofLetters?]
  by_cases hx : letters = "x"
  · subst hx
    cases registerClass <;> simp [RegisterClass.NamedBy]
  · rw [if_neg hx]
    cases registerClass with
    | generalPurpose => simp [RegisterClass.NamedBy, hx]
    | floatingPoint => by_cases hf : letters = "f" <;> simp [RegisterClass.NamedBy, hf]

theorem selectedRange_range_eq_bind (registry : FieldRegistry) (hi : String) (lo? : Option String) :
    selectedRange registry (.range hi lo?) = (do
      let first ← index hi
      let last ← index (lo?.getD hi)
      return ⟨first, last⟩) := by
  rw [selectedRange]
  cases h : index hi with
  | error e => rfl
  | ok first =>
    cases lo? with
    | none =>
      rw [Option.getD_none, h]
      rfl
    | some lo => rfl

variable {registry : FieldRegistry} {declared : List NamedField}

/-- A range that can be counted is selected exactly if its numerals or its field say so. -/
theorem selectedRange_eq_ok_iff (H : registry.Built declared) {selector : Selector} (hselector : selector.WellFormed)
    {range : BitRange} (hle : range.lo ≤ range.hi) (hhi : range.hi < wordLimit) :
    selectedRange registry selector = .ok range ↔ selector.Selects declared range := by
  cases selector with
  | range hi lo? =>
    have hlo : IsNumeral (lo?.getD hi) := by
      cases lo? with
      | none => exact hselector.1
      | some lo => exact hselector.2 lo rfl
    simp only [selectedRange_range_eq_bind, bind_eq_ok_iff, index_eq_ok_iff hselector.1, index_eq_ok_iff hlo]
    constructor
    · rintro ⟨first, ⟨rfl, -⟩, last, ⟨rfl, -⟩, h⟩
      cases h
      exact ⟨rfl, rfl⟩
    · rintro ⟨hfirst, hlast⟩
      exact ⟨range.hi, ⟨hfirst, hhi⟩, range.lo, ⟨hlast, Nat.lt_of_le_of_lt hle hhi⟩, rfl⟩
  | named name =>
    rw [Selector.Selects, ← H.rangeOf?_eq_some_iff, selectedRange, FieldRegistry.rangeOf?]
    cases NameMap.find? name registry <;> simp

end Operand

/-- No selector names two ranges. -/
theorem Selector.Selects.unique {registry : FieldRegistry} {declared : List NamedField} (H : registry.Built declared)
    {selector : Selector} {range range' : BitRange} (h : selector.Selects declared range)
    (h' : selector.Selects declared range') : range = range' := by
  cases selector with
  | range hi lo? =>
    obtain ⟨hi, lo⟩ := range
    obtain ⟨hi', lo'⟩ := range'
    simp only [Selects] at h h'
    simp only [h, h']
  | named name =>
    rw [Selects, ← H.rangeOf?_eq_some_iff] at h h'
    exact Option.some.inj (h.symm.trans h')

namespace Operand

variable {registry : FieldRegistry} {declared : List NamedField}

/-- An operand resolves exactly if it is legal, and then to what it means. -/
theorem slot_eq_ok_iff (H : registry.Built declared) {operand : Operand} (hoperand : operand.WellFormed) {width : Width}
    {s : Slot} : slot width registry operand = .ok s ↔ operand.Legal width declared ∧ operand.Means declared s := by
  cases operand with
  | absent =>
    rw [slot, Except.ok.injEq, eq_comm]
    exact (and_iff_right trivial).symm
  | constant digits =>
    rw [slot_constant_eq_ok_iff]
    simp only [index_eq_ok_iff hoperand, Legal, Means]
    constructor
    · rintro ⟨value, ⟨rfl, -⟩, hlt, rfl⟩
      refine ⟨by omega, _, rfl, ?_⟩
      rw [BitVec.toNat_ofNat, Nat.mod_eq_of_lt (by omega)]
    · rintro ⟨hle, register, rfl, hregister⟩
      refine ⟨numeralValue digits, ⟨rfl, ?_⟩, by omega, ?_⟩
      · rw [wordLimit]
        omega
      · rw [← hregister, BitVec.ofNat_toNat, BitVec.setWidth_eq]
  | field letters selector bias? =>
    obtain ⟨-, hselector, hbias⟩ := hoperand
    have hcount {range : BitRange} (hhi : range.hi < width.bits) : range.hi < wordLimit :=
      Nat.lt_of_lt_of_le hhi (Nat.le_trans (Layout.bits_le width) (by decide))
    rw [slot_field_eq_ok_iff]
    simp only [biasValue_eq_ok_iff hbias, ofLetters?_eq_some_iff, largestRegister, Nat.one_shiftLeft, Legal, Means]
    constructor
    · rintro ⟨registerClass, range, bias, hclass, hrange, hle, hhi, ⟨rfl, -⟩, hlargest, rfl⟩
      have hselects := (selectedRange_eq_ok_iff H hselector hle (hcount hhi)).mp hrange
      refine ⟨⟨?_, range, hselects, hle, hhi, by omega⟩, registerClass, range, _, rfl, hclass, hselects, ?_⟩
      · cases registerClass with
        | generalPurpose => exact .inl hclass
        | floatingPoint => exact .inr hclass
      · rw [BitVec.toNat_ofNat, Nat.mod_eq_of_lt (by omega)]
    · rintro ⟨⟨-, range, hselects, hle, hhi, hlargest⟩, registerClass, range', offset, rfl, hclass, hselects', hoffset⟩
      cases hselects.unique H hselects'
      refine ⟨registerClass, range, biasOf bias?, hclass, ?_, hle, hhi, ⟨rfl, ?_⟩, by omega, ?_⟩
      · exact (selectedRange_eq_ok_iff H hselector hle (hcount hhi)).mpr hselects
      · rw [wordLimit]
        omega
      · rw [← hoffset, BitVec.ofNat_toNat, BitVec.setWidth_eq]

theorem Legal.exists_means {width : Width} {operand : Operand} (h : operand.Legal width declared) :
    ∃ s, operand.Means declared s := by
  cases operand with
  | absent => exact ⟨_, rfl⟩
  | constant digits =>
    have hle : numeralValue digits ≤ 254 := h
    refine ⟨_, BitVec.ofNat 8 (numeralValue digits), rfl, ?_⟩
    rw [BitVec.toNat_ofNat, Nat.mod_eq_of_lt (by omega)]
  | field letters selector bias? =>
    obtain ⟨hletters, range, hselects, -, -, hlargest⟩ := h
    obtain ⟨registerClass, hclass⟩ : ∃ registerClass : RegisterClass, registerClass.NamedBy letters := by
      rcases hletters with hx | hfloat
      · exact ⟨.generalPurpose, hx⟩
      · exact ⟨.floatingPoint, hfloat⟩
    refine ⟨_, registerClass, range, BitVec.ofNat 8 (biasOf bias?), rfl, hclass, hselects, ?_⟩
    rw [BitVec.toNat_ofNat, Nat.mod_eq_of_lt (by omega)]

/-! ### Whole lists -/

theorem exists_means {width : Width} {operands : List Operand}
    (h : ∀ operand ∈ operands, operand.Legal width declared) : ∃ slots, List.Forall₂ (Means declared) operands slots := by
  induction operands with
  | nil => exact ⟨[], .nil⟩
  | cons operand operands ih =>
    obtain ⟨hoperand, hoperands⟩ := List.forall_mem_cons.mp h
    obtain ⟨s, hs⟩ := hoperand.exists_means
    obtain ⟨slots, hslots⟩ := ih hoperands
    exact ⟨s :: slots, .cons hs hslots⟩

theorem forall₂_slot_iff (H : registry.Built declared) {width : Width} {operands : List Operand}
    (hoperands : ∀ operand ∈ operands, operand.WellFormed) {slots : List Slot} :
    List.Forall₂ (fun operand s => slot width registry operand = .ok s) operands slots ↔
      (∀ operand ∈ operands, operand.Legal width declared) ∧ List.Forall₂ (Means declared) operands slots := by
  rw [← List.forall₂_and_left]
  constructor
  · intro h
    refine ((List.forall₂_and_left _ _).mpr ⟨hoperands, h⟩).imp ?_
    rintro operand s ⟨hoperand, hs⟩
    exact (slot_eq_ok_iff H hoperand).mp hs
  · intro h
    refine ((List.forall₂_and_left _ _).mpr ⟨hoperands, h⟩).imp ?_
    rintro operand s ⟨hoperand, hs⟩
    exact (slot_eq_ok_iff H hoperand).mpr hs

/-- An error names an operand that does not resolve. -/
theorem slotsOf_eq_error {line : Nat} {width : Width} {operands : List Operand} {error : Error}
    (h : slotsOf line width registry operands = .error error) :
    ∃ operand ∈ operands, (∀ s, slot width registry operand ≠ .ok s) ∧
      ∃ fault, error = .illegalOperand line operand.text fault := by
  induction operands with
  | nil => cases h
  | cons operand operands ih =>
    rw [slotsOf] at h
    cases hslot : slot width registry operand with
    | error fault =>
      rw [hslot] at h
      cases h
      exact ⟨operand, List.mem_cons_self, fun s hs => (by rw [hslot] at hs; cases hs), fault, rfl⟩
    | ok s =>
      rw [hslot] at h
      cases hrest : slotsOf line width registry operands with
      | ok slots =>
        simp only [hrest] at h
        cases h
      | error e =>
        simp only [hrest] at h
        cases h
        obtain ⟨illegal, hmem, hillegal⟩ := ih hrest
        exact ⟨illegal, List.mem_cons_of_mem _ hmem, hillegal⟩

end Operand

theorem PerSlot.ofList?_eq_some_iff {α : Type} {filler : α} {xs : List α} {slots : PerSlot α} :
    ofList? filler xs = some slots ↔
      xs.length ≤ 4 ∧ slots.toList = xs ++ List.replicate (4 - xs.length) filler := by
  obtain ⟨rd, rs1, rs2, rs3⟩ := slots
  match xs with
  | [] | [_] | [_, _] | [_, _, _] | [_, _, _, _] => simp [ofList?, toList, List.replicate, eq_comm]
  | _ :: _ :: _ :: _ :: _ :: _ => simp [ofList?]

theorem PerSlot.exists_ofList? {α : Type} (filler : α) {xs : List α} (h : xs.length ≤ 4) :
    ∃ slots, ofList? filler xs = some slots := by
  match xs with
  | [] | [_] | [_, _] | [_, _, _] | [_, _, _, _] => exact ⟨_, rfl⟩
  | _ :: _ :: _ :: _ :: _ :: _ =>
    simp only [List.length_cons] at h
    omega

namespace Operand

variable {registry : FieldRegistry} {declared : List NamedField} {placed : List PlacedOperand}

open PlacedOperand (listText readAll_listText)

theorem resolve_listText_eq_ok_iff {line : Nat} {width : Width} (H : registry.Built declared) (hne : placed ≠ [])
    (hplaced : ∀ entry ∈ placed, entry.WellFormed) {slots : PerSlot Slot} :
    resolve line (listText placed) width registry = .ok slots ↔
      placed.length ≤ 4 ∧ (∀ entry ∈ placed, entry.operand.Legal width declared) ∧
        ∃ entries, List.Forall₂ (Means declared) (placed.map PlacedOperand.operand) entries ∧
          slots.toList = entries ++ List.replicate (4 - placed.length) .none := by
  have hoperands : ∀ operand ∈ placed.map PlacedOperand.operand, operand.WellFormed :=
    List.forall_mem_map.mpr fun entry hentry => (hplaced entry hentry).operand
  rw [resolve_eq_ok_iff, readAll_listText hne hplaced]
  constructor
  · rintro ⟨operands, entries, hread, hentries, hslots⟩
    cases hread
    obtain ⟨hlegal, hmeans⟩ := (forall₂_slot_iff H hoperands).mp hentries
    obtain ⟨hlength, htoList⟩ := PerSlot.ofList?_eq_some_iff.mp hslots
    have heq : entries.length = placed.length := hmeans.length_eq.symm.trans (List.length_map _)
    rw [heq] at hlength htoList
    exact ⟨hlength, List.forall_mem_map.mp hlegal, entries, hmeans, htoList⟩
  · rintro ⟨hlength, hlegal, entries, hmeans, htoList⟩
    have heq : entries.length = placed.length := hmeans.length_eq.symm.trans (List.length_map _)
    rw [← heq] at hlength htoList
    exact ⟨_, entries, rfl, (forall₂_slot_iff H hoperands).mpr ⟨List.forall_mem_map.mpr hlegal, hmeans⟩,
      PerSlot.ofList?_eq_some_iff.mpr ⟨hlength, htoList⟩⟩

theorem resolve_eq_error {line : Nat} {width : Width} {list : String} {operands : List Operand} {error : Error}
    (hread : readAll operandList list.toList = .ok operands) (h : resolve line list width registry = .error error) :
    (∃ operand ∈ operands, (∀ s, slot width registry operand ≠ .ok s) ∧
        ∃ fault, error = .illegalOperand line operand.text fault) ∨
      4 < operands.length ∧ ∃ fault, error = .illegalOperand line list fault := by
  unfold resolve at h
  split at h
  · next hfailure => cases hread.symm.trans hfailure
  · next hoperands =>
    obtain rfl := Except.ok.inj (hread.symm.trans hoperands)
    split at h
    · next e hslots =>
      rw [← Except.error.inj h]
      exact .inl (slotsOf_eq_error hslots)
    · next slots hslots =>
      split at h
      · cases h
      · next hnone =>
        refine .inr ⟨Nat.lt_of_not_le fun hle => ?_, _, (Except.error.inj h).symm⟩
        rw [(slotsOf_eq_ok_iff.mp hslots).length_eq] at hle
        obtain ⟨_, hsome⟩ := PerSlot.exists_ofList? Slot.none hle
        rw [hnone] at hsome
        cases hsome

/-- An operand list, with any gaps around its commas, resolves exactly if it has at most four operands and all are legal.
Each slot then has what its operand means, and the slots behind the operands are empty. Otherwise the error is one of an
illegal operand on the given line, and it names such an operand or the whole of a list that is too long. -/
theorem resolve_listText (line : Nat) (width : Width) (H : registry.Built declared) (hne : placed ≠ [])
    (hplaced : ∀ entry ∈ placed, entry.WellFormed) :
    ((∃ slots, resolve line (listText placed) width registry = .ok slots) ↔
      placed.length ≤ 4 ∧ ∀ entry ∈ placed, entry.operand.Legal width declared) ∧
    (∀ slots, resolve line (listText placed) width registry = .ok slots →
      ∃ entries, List.Forall₂ (Means declared) (placed.map PlacedOperand.operand) entries ∧
        slots.toList = entries ++ List.replicate (4 - placed.length) .none) ∧
    ∀ error, resolve line (listText placed) width registry = .error error →
      ∃ specifier fault, error = .illegalOperand line specifier fault ∧
        ((∃ entry ∈ placed, ¬ entry.operand.Legal width declared ∧ specifier = entry.operand.text) ∨
          4 < placed.length ∧ specifier = listText placed) := by
  refine ⟨⟨?_, ?_⟩, ?_, ?_⟩
  · rintro ⟨slots, hslots⟩
    obtain ⟨hlength, hlegal, -⟩ := (resolve_listText_eq_ok_iff H hne hplaced).mp hslots
    exact ⟨hlength, hlegal⟩
  · rintro ⟨hlength, hlegal⟩
    obtain ⟨entries, hmeans⟩ := exists_means (List.forall_mem_map.mpr hlegal)
    have heq : entries.length = placed.length := hmeans.length_eq.symm.trans (List.length_map _)
    obtain ⟨slots, hslots⟩ := PerSlot.exists_ofList? Slot.none (heq ▸ hlength)
    have htoList := (PerSlot.ofList?_eq_some_iff.mp hslots).2
    rw [heq] at htoList
    exact ⟨slots, (resolve_listText_eq_ok_iff H hne hplaced).mpr ⟨hlength, hlegal, entries, hmeans, htoList⟩⟩
  · intro slots hslots
    exact ((resolve_listText_eq_ok_iff H hne hplaced).mp hslots).2.2
  · intro error herror
    rcases resolve_eq_error (readAll_listText hne hplaced) herror with
      ⟨operand, hmem, hnot, fault, rfl⟩ | ⟨hlength, fault, rfl⟩
    · obtain ⟨entry, hentry, rfl⟩ := List.mem_map.mp hmem
      refine ⟨_, fault, rfl, .inl ⟨entry, hentry, fun hlegal => ?_, rfl⟩⟩
      obtain ⟨s, hs⟩ := hlegal.exists_means
      exact hnot s ((slot_eq_ok_iff H (hplaced entry hentry).operand).mpr ⟨hlegal, hs⟩)
    · rw [List.length_map] at hlength
      exact ⟨_, fault, rfl, .inr ⟨hlength, rfl⟩⟩

/-- Every kind of operand, the second and the third with the largest register number that they can have. -/
def edgeOperands : List PlacedOperand :=
  [{ operand := .field "x" (.named "rd") none, behind := [' '] },
    { before := ['\t'], operand := .field "f" (.range "6" (some "0")) (some "127") },
    { before := [' ', ' '], operand := .constant "0254", behind := ['\t'] },
    { operand := .absent }]

/-- A field of five bits. -/
def edgeField : NamedField :=
  ⟨"rd", 7, 5⟩

theorem resolve_listText_edgeOperands :
    listText edgeOperands = "x[rd] ,\tf[6:0]+127,  0254\t,-" ∧
      ∃ registry slots, registry.Built [edgeField] ∧ (∀ entry ∈ edgeOperands, entry.WellFormed) ∧
        resolve 1 (listText edgeOperands) .standard registry = .ok slots := by
  have hregistry : FieldRegistry.Built [("rd", ⟨⟨11, 7⟩, 1⟩)] [edgeField] :=
    .register .nil (by decide) rfl
  have hplaced : ∀ entry ∈ edgeOperands, entry.WellFormed := by decide
  have hlegal : ∀ entry ∈ edgeOperands, entry.operand.Legal .standard [edgeField] := by
    simp only [edgeOperands, List.forall_mem_cons]
    refine ⟨⟨.inl rfl, ⟨11, 7⟩, ?_⟩, ⟨.inr (.inl rfl), ⟨6, 0⟩, ?_⟩, ?_, trivial, nofun⟩
    · exact ⟨⟨edgeField, List.mem_cons_self, rfl, rfl, rfl⟩, by decide, by decide, by decide⟩
    · exact ⟨⟨rfl, rfl⟩, by decide, by decide, by decide⟩
    · show numeralValue "0254" ≤ 254
      decide
  have hresolve := (resolve_listText 1 .standard hregistry (by decide) hplaced).1
  obtain ⟨slots, hslots⟩ := hresolve.mpr ⟨by decide, hlegal⟩
  exact ⟨by decide, _, slots, hregistry, hplaced, hslots⟩

end Operand

end IsaForge
