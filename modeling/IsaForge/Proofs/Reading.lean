import IsaForge.Grammar.Rule
import Mathlib

/-!
Reading by a grammar, one law for each way of building one. `Peg.parse` on a sequence, a choice or a repetition is put
in terms of the readings of its items, so that later proofs never open `Peg.parse` itself. A repetition is followed by
`Steps`, the run of its single readings; a run of characters of one class is read up to the first character outside it.

The last section is about numerals: `Text.readDigits` gives the value that the digits stand for.
-/

namespace IsaForge.Grammar

/-! ### Ends of runs -/

/-- `rest` does not go on with an item of the class, so that a run in front of it ends there. -/
def Stops {α : Type} (accepts : α → Bool) (rest : List α) : Prop :=
  ∀ c ∈ rest.head?, accepts c = false

theorem Stops.nil {α : Type} {accepts : α → Bool} : Stops accepts [] := nofun

theorem Stops.cons {α : Type} {accepts : α → Bool} {c : α} {rest : List α}
    (h : accepts c = false) : Stops accepts (c :: rest) := by
  intro d hd
  cases hd
  exact h

theorem Stops.of_or {α : Type} {accepts others : α → Bool} {rest : List α}
    (h : Stops (fun c => accepts c || others c) rest) : Stops accepts rest ∧ Stops others rest :=
  ⟨fun c hc => (Bool.or_eq_false_iff.mp (h c hc)).1, fun c hc => (Bool.or_eq_false_iff.mp (h c hc)).2⟩

/-- A run of items of one class does not go on with items of another. -/
theorem Stops.run {α : Type} {accepts own : α → Bool} {run : List α} (hne : run ≠ [])
    (hrun : ∀ c ∈ run, own c = true) (haccepts : ∀ c, own c = true → accepts c = false) (rest : List α) :
    Stops accepts (run ++ rest) := by
  cases run with
  | nil => exact absurd rfl hne
  | cons c run => exact .cons (haccepts c (hrun c List.mem_cons_self))

theorem takeWhile_run {α : Type} {accepts : α → Bool} {cs rest : List α}
    (hcs : ∀ c ∈ cs, accepts c = true) (hrest : Stops accepts rest) :
    (cs ++ rest).takeWhile accepts = cs := by
  rw [List.takeWhile_append_of_pos hcs]
  cases rest with
  | nil => simp
  | cons c rest => simp [hrest c rfl]

theorem dropWhile_run {α : Type} {accepts : α → Bool} {cs rest : List α}
    (hcs : ∀ c ∈ cs, accepts c = true) (hrest : Stops accepts rest) :
    (cs ++ rest).dropWhile accepts = rest := by
  rw [List.dropWhile_append_of_pos hcs]
  cases rest with
  | nil => rfl
  | cons c rest => simp [hrest c rfl]

theorem stops_dropWhile {α : Type} (accepts : α → Bool) (cs : List α) :
    Stops accepts (cs.dropWhile accepts) := by
  intro c hc
  have h := List.head?_dropWhile_not accepts cs
  rw [Option.mem_def.mp hc] at h
  exact h

/-! ### Gaps -/

/-- A run of spaces and tabs. -/
def IsGap (cs : List Char) : Prop :=
  ∀ c ∈ cs, isGap c = true

instance (cs : List Char) : Decidable (IsGap cs) :=
  List.decidableBAll _ _

theorem skip_gap {gap rest : List Char} (hgap : IsGap gap) (hrest : Stops isGap rest) :
    RuleKind.spaced.skip (gap ++ rest) = rest :=
  dropWhile_run hgap hrest

theorem skip_of_ne_spaced {mode : RuleKind} (hmode : mode ≠ .spaced) (cs : List Char) :
    mode.skip cs = cs := by
  cases mode with
  | spaced => exact absurd rfl hmode
  | joined | sealed => rfl

namespace Peg

variable {ρ α β : Type} {mode : RuleKind} {cs : List Char}

/-! ### One law for each constructor -/

theorem parse_seq (first : Peg ρ α) (second : Peg ρ β) :
    (seq first second).parse mode cs =
      (first.parse mode cs).bind fun x =>
        (second.parse mode (mode.skip x.2)).map fun y => ((x.1, y.1), y.2) := by
  rw [parse]
  cases first.parse mode cs with
  | none => rfl
  | some x =>
    simp only [Option.bind_some]
    cases second.parse mode (mode.skip x.2) <;> rfl

theorem parse_seq_of {first : Peg ρ α} {second : Peg ρ β} {mid rest : List Char} {x : α} {y : β}
    (hfirst : first.parse mode cs = some (x, mid))
    (hsecond : second.parse mode (mode.skip mid) = some (y, rest)) :
    (seq first second).parse mode cs = some ((x, y), rest) := by
  rw [parse_seq, hfirst, Option.bind_some, hsecond, Option.map_some]

theorem parse_choice (first second : Peg ρ α) :
    (choice first second).parse mode cs = (first.parse mode cs).or (second.parse mode cs) := by
  rw [parse]
  cases first.parse mode cs <;> rfl

theorem parse_optional (item : Peg ρ α) :
    (optional item).parse mode cs =
      some ((item.parse mode cs).elim (none, cs) fun x => (some x.1, x.2)) := by
  rw [parse]
  cases item.parse mode cs <;> rfl

theorem parse_map (f : α → β) (item : Peg ρ α) :
    (map f item).parse mode cs = (item.parse mode cs).map fun x => (f x.1, x.2) := by
  rw [parse]
  cases item.parse mode cs <;> rfl

theorem parse_rule (name : ρ) (kind : RuleKind) (body : Peg ρ α) :
    (rule name kind body).parse mode cs = body.parse (mode.enter kind) cs := by
  rw [parse]

theorem parse_char_nil (accepts : Char → Bool) :
    (char accepts : Peg ρ Char).parse mode [] = none := by
  rw [parse]

theorem parse_char_cons (accepts : Char → Bool) (c : Char) :
    (char accepts : Peg ρ Char).parse mode (c :: cs) = if accepts c then some (c, cs) else none := by
  rw [parse]

theorem parse_char_none {accepts : Char → Bool} (h : Stops accepts cs) :
    (char accepts : Peg ρ Char).parse mode cs = none := by
  cases cs with
  | nil => exact parse_char_nil accepts
  | cons c cs => rw [parse_char_cons, h c rfl]; rfl

theorem parse_exactly_self (c : Char) :
    (exactly c : Peg ρ Char).parse mode (c :: cs) = some (c, cs) := by
  simp [exactly, parse_char_cons]

theorem parse_before (first : Peg ρ α) (second : Peg ρ β) :
    (before first second).parse mode cs =
      (first.parse mode cs).bind fun x => second.parse mode (mode.skip x.2) := by
  rw [before, parse_map, parse_seq]
  cases first.parse mode cs with
  | none => rfl
  | some x =>
    simp only [Option.bind_some, Option.map_map]
    cases second.parse mode (mode.skip x.2) <;> rfl

theorem parse_after (first : Peg ρ α) (second : Peg ρ β) :
    (after first second).parse mode cs =
      (first.parse mode cs).bind fun x =>
        (second.parse mode (mode.skip x.2)).map fun y => (x.1, y.2) := by
  rw [after, parse_map, parse_seq]
  cases first.parse mode cs with
  | none => rfl
  | some x =>
    simp only [Option.bind_some, Option.map_map]
    cases second.parse mode (mode.skip x.2) <;> rfl

theorem parse_finish (name : ρ) :
    (finish name).parse mode cs = if cs = [] then some ((), []) else none := by
  rw [finish, parse_rule, parse]
  cases cs with
  | nil => simp [parse_char_nil]
  | cons c cs => simp [parse_char_cons]

/-! ### Progress -/

/-- Whether a grammar reads at least one character whenever it reads anything. -/
def consumes : {α : Type} → Peg ρ α → Bool
  | _, .char _ => true
  | _, .seq first second => first.consumes || second.consumes
  | _, .choice first second => first.consumes && second.consumes
  | _, .rule _ _ body => body.consumes
  | _, .map _ item => item.consumes
  | _, .start | _, .optional _ | _, .many _ | _, .absent _ => false

theorem length_skip_le (mode : RuleKind) (cs : List Char) : (mode.skip cs).length ≤ cs.length := by
  cases mode with
  | spaced => exact (List.dropWhile_sublist _).length_le
  | joined | sealed => exact Nat.le_refl _

theorem length_iterate_le {step : List Char → Option (α × List Char)}
    (hstep : ∀ {cs x rest}, step cs = some (x, rest) → rest.length ≤ cs.length) (limit : Nat)
    (cs : List Char) : (iterate step limit cs).2.length ≤ cs.length := by
  induction limit generalizing cs with
  | zero => exact Nat.le_refl _
  | succ limit ih =>
    rw [iterate]
    cases h : step cs with
    | none => exact Nat.le_refl _
    | some x => exact Nat.le_trans (ih x.2) (hstep h)

/-- A reading leaves no more than it was given, and less if its grammar consumes. -/
theorem parse_length {α : Type} {g : Peg ρ α} {mode : RuleKind} {cs rest : List Char} {x : α}
    (h : g.parse mode cs = some (x, rest)) :
    rest.length ≤ cs.length ∧ (g.consumes = true → rest.length < cs.length) := by
  induction g generalizing mode cs rest with
  | start =>
    rw [parse_start] at h
    cases h
    exact ⟨Nat.le_refl _, fun hc => absurd hc Bool.false_ne_true⟩
  | char accepts =>
    cases cs with
    | nil => rw [parse_char_nil] at h; cases h
    | cons c cs =>
      rw [parse_char_cons] at h
      split at h
      · cases h; simp
      · cases h
  | seq first second ih₁ ih₂ =>
    rw [parse_seq, Option.bind_eq_some_iff] at h
    obtain ⟨⟨y, mid⟩, h₁, h⟩ := h
    obtain ⟨⟨z, left⟩, h₂, hx⟩ := Option.map_eq_some_iff.mp h
    obtain ⟨rfl, rfl⟩ := Prod.mk.inj hx
    have hmid := ih₁ h₁
    have hrest := ih₂ h₂
    dsimp only at hrest ⊢
    have hskip := length_skip_le mode mid
    refine ⟨by omega, fun hc => ?_⟩
    rcases Bool.or_eq_true_iff.mp hc with hc | hc
    · have := hmid.2 hc; omega
    · have := hrest.2 hc; omega
  | choice first second ih₁ ih₂ =>
    rw [parse_choice, Option.or_eq_some_iff] at h
    rcases h with h | ⟨_, h⟩
    · exact ⟨(ih₁ h).1, fun hc => (ih₁ h).2 (Bool.and_eq_true_iff.mp hc).1⟩
    · exact ⟨(ih₂ h).1, fun hc => (ih₂ h).2 (Bool.and_eq_true_iff.mp hc).2⟩
  | optional item ih =>
    rw [parse] at h
    split at h <;> cases h
    · next h' => exact ⟨(ih h').1, fun hc => absurd hc Bool.false_ne_true⟩
    · exact ⟨Nat.le_refl _, fun hc => absurd hc Bool.false_ne_true⟩
  | many item ih =>
    rw [parse] at h
    split at h <;> cases h
    · exact ⟨Nat.le_refl _, fun hc => absurd hc Bool.false_ne_true⟩
    · next y mid h' =>
      have hstep : ∀ {cs x rest}, item.parse mode (mode.skip cs) = some (x, rest) →
          rest.length ≤ cs.length :=
        fun h => Nat.le_trans (ih h).1 (length_skip_le mode _)
      exact ⟨Nat.le_trans (length_iterate_le hstep _ mid) (ih h').1, fun hc => absurd hc Bool.false_ne_true⟩
  | absent item ih =>
    rw [parse] at h
    split at h <;> cases h
    exact ⟨Nat.le_refl _, fun hc => absurd hc Bool.false_ne_true⟩
  | rule name kind body ih =>
    rw [parse_rule] at h
    exact ih h
  | map f item ih =>
    rw [parse_map] at h
    obtain ⟨⟨y, left⟩, hitem, hx⟩ := Option.map_eq_some_iff.mp h
    obtain ⟨rfl, rfl⟩ := Prod.mk.inj hx
    exact ih hitem

/-! ### Repetition -/

/-- From `cs` on, `step` reads `xs` one after the other and then fails at `rest`. -/
inductive Steps (step : List Char → Option (α × List Char)) :
    List Char → List α → List Char → Prop
  | stop {cs : List Char} : step cs = none → Steps step cs [] cs
  | more {cs mid rest : List Char} {x : α} {xs : List α} :
    step cs = some (x, mid) → Steps step mid xs rest → Steps step cs (x :: xs) rest

theorem Steps.iterate_eq {step : List Char → Option (α × List Char)} {rest : List Char}
    {xs : List α} (H : Steps step cs xs rest) {limit : Nat} (hlimit : xs.length ≤ limit) :
    iterate step limit cs = (xs, rest) := by
  induction H generalizing limit with
  | stop h => cases limit <;> simp [iterate, h]
  | more h _ ih =>
    cases limit with
    | zero => simp at hlimit
    | succ limit =>
      simp only [List.length_cons, Nat.add_le_add_iff_right] at hlimit
      simp [iterate, h, ih hlimit]

/-- There is a character for each of the readings of a consuming item, so the bound of a repetition is never met. -/
theorem Steps.length_le {item : Peg ρ α} {rest : List Char} {xs : List α}
    (hitem : item.consumes = true)
    (H : Steps (fun cs => item.parse mode (mode.skip cs)) cs xs rest) : xs.length ≤ cs.length := by
  induction H with
  | stop _ => exact Nat.zero_le _
  | @more cs mid rest x xs h _ ih =>
    have hread := (parse_length h).2 hitem
    have hskip := length_skip_le mode cs
    simp only [List.length_cons]
    omega

theorem parse_many_of_none {item : Peg ρ α} (h : item.parse mode cs = none) :
    (many item).parse mode cs = some ([], cs) := by
  rw [parse, h]

theorem parse_many_of_steps {item : Peg ρ α} {x : α} {xs : List α} {mid rest : List Char}
    (hitem : item.consumes = true) (hfirst : item.parse mode cs = some (x, mid))
    (hmore : Steps (fun cs => item.parse mode (mode.skip cs)) mid xs rest) :
    (many item).parse mode cs = some (x :: xs, rest) := by
  rw [parse, hfirst]
  simp [hmore.iterate_eq (hmore.length_le hitem)]

/-- A repetition where no gap is in front. -/
theorem parse_many_steps {item : Peg ρ α} {xs : List α} {rest : List Char}
    (hitem : item.consumes = true) (hskip : mode.skip cs = cs)
    (hsteps : Steps (fun cs => item.parse mode (mode.skip cs)) cs xs rest) :
    (many item).parse mode cs = some (xs, rest) := by
  cases hsteps with
  | stop h =>
    rw [hskip] at h
    exact parse_many_of_none h
  | more h hmore =>
    rw [hskip] at h
    exact parse_many_of_steps hitem h hmore

theorem parse_several (item : Peg ρ α) :
    (several item).parse mode cs =
      (item.parse mode cs).bind fun x =>
        ((many item).parse mode (mode.skip x.2)).map fun y => (x.1 :: y.1, y.2) := by
  rw [several, parse_map, parse_seq]
  cases item.parse mode cs with
  | none => rfl
  | some x =>
    simp only [Option.bind_some, Option.map_map]
    cases (many item).parse mode (mode.skip x.2) <;> rfl

theorem skip_skip (mode : RuleKind) (cs : List Char) : mode.skip (mode.skip cs) = mode.skip cs := by
  cases mode with
  | spaced => exact List.dropWhile_idempotent _ _
  | joined | sealed => rfl

/-- A repetition of at least one item, by its single readings. Where there is only one, the gap behind it is already
passed over, which the next item would do anyway. -/
theorem parse_several_of_steps {item : Peg ρ α} {x : α} {xs : List α} {mid rest : List Char}
    (hitem : item.consumes = true) (hfirst : item.parse mode cs = some (x, mid))
    (hmore : Steps (fun cs => item.parse mode (mode.skip cs)) mid xs rest) :
    ∃ left, (several item).parse mode cs = some (x :: xs, left) ∧
      mode.skip left = mode.skip rest := by
  rw [parse_several, hfirst, Option.bind_some]
  cases hmore with
  | stop h => exact ⟨mode.skip mid, by simp [parse_many_of_none h], skip_skip mode mid⟩
  | more h hmore => exact ⟨rest, by simp [parse_many_of_steps hitem h hmore], rfl⟩

/-! ### Runs of characters -/

private theorem steps_char (accepts : Char → Bool) (hmode : mode ≠ .spaced) (cs : List Char) :
    Steps (fun cs => (char accepts : Peg ρ Char).parse mode (mode.skip cs)) cs
      (cs.takeWhile accepts) (cs.dropWhile accepts) := by
  induction cs with
  | nil => exact .stop (by simp [skip_of_ne_spaced hmode, parse_char_nil])
  | cons c cs ih =>
    by_cases hc : accepts c = true
    · rw [List.takeWhile_cons_of_pos hc, List.dropWhile_cons_of_pos hc]
      exact .more (by simp [skip_of_ne_spaced hmode, parse_char_cons, hc]) ih
    · rw [List.takeWhile_cons_of_neg hc, List.dropWhile_cons_of_neg hc]
      exact .stop (by simp [skip_of_ne_spaced hmode, parse_char_cons, hc])

theorem parse_many_char (accepts : Char → Bool) (hmode : mode ≠ .spaced) (cs : List Char) :
    (many (char accepts : Peg ρ Char)).parse mode cs =
      some (cs.takeWhile accepts, cs.dropWhile accepts) := by
  cases cs with
  | nil => exact parse_many_of_none (parse_char_nil accepts)
  | cons c cs =>
    by_cases hc : accepts c = true
    · rw [List.takeWhile_cons_of_pos hc, List.dropWhile_cons_of_pos hc]
      exact parse_many_of_steps rfl (by simp [parse_char_cons, hc]) (steps_char accepts hmode cs)
    · rw [List.takeWhile_cons_of_neg hc, List.dropWhile_cons_of_neg hc]
      exact parse_many_of_none (by simp [parse_char_cons, hc])

/-- A non-empty run of characters is read up to its end. -/
theorem parse_several_char {accepts : Char → Bool} (hmode : mode ≠ .spaced) {run rest : List Char}
    (hne : run ≠ []) (hrun : ∀ c ∈ run, accepts c = true) (hrest : Stops accepts rest) :
    (several (char accepts : Peg ρ Char)).parse mode (run ++ rest) = some (run, rest) := by
  cases run with
  | nil => exact absurd rfl hne
  | cons c run =>
    have hc := hrun c List.mem_cons_self
    have htail : ∀ c ∈ run, accepts c = true := fun c h => hrun c (List.mem_cons_of_mem _ h)
    rw [parse_several, List.cons_append, parse_char_cons, if_pos hc, Option.bind_some,
      skip_of_ne_spaced hmode, parse_many_char accepts hmode, takeWhile_run htail hrest,
      dropWhile_run htail hrest]
    rfl

/-- A character of one class and a run of characters of another are read up to the end of the run. -/
theorem parse_char_many_char {start part : Char → Bool} (hmode : mode ≠ .spaced) {c : Char}
    {run rest : List Char} (hc : start c = true) (hrun : ∀ c ∈ run, part c = true)
    (hrest : Stops part rest) :
    (seq (char start : Peg ρ Char) (many (char part))).parse mode (c :: (run ++ rest)) =
      some ((c, run), rest) := by
  refine parse_seq_of ((parse_char_cons start c).trans (if_pos hc)) ?_
  rw [skip_of_ne_spaced hmode, parse_many_char part hmode, takeWhile_run hrun hrest,
    dropWhile_run hrun hrest]

/-- No run is read where none begins. -/
theorem parse_several_char_none {accepts : Char → Bool} {cs : List Char} (h : Stops accepts cs) :
    (several (char accepts : Peg ρ Char)).parse mode cs = none := by
  rw [parse_several, parse_char_none h, Option.bind_none]

end Peg

/-! ### Numbers and names -/

/-- A non-empty run of decimal digits. -/
def IsNumeral (digits : String) : Prop :=
  digits.toList ≠ [] ∧ ∀ c ∈ digits.toList, c.isDigit = true

instance (digits : String) : Decidable (IsNumeral digits) :=
  @instDecidableAnd _ _ inferInstance (List.decidableBAll _ _)

/-- A letter or an underscore, then letters, digits and underscores. -/
def IsName (name : String) : Prop :=
  (∃ c ∈ name.toList.head?, isNameStart c = true) ∧ ∀ c ∈ name.toList, isNamePart c = true

instance decidableExistsNameStart (cs : List Char) : Decidable (∃ c ∈ cs.head?, isNameStart c = true) :=
  decidable_of_iff (cs.head?.any isNameStart = true) (by cases cs.head? <;> simp)

instance (name : String) : Decidable (IsName name) :=
  @instDecidableAnd _ _ (decidableExistsNameStart _) (List.decidableBAll _ _)

theorem IsNumeral.stops {digits : String} (h : IsNumeral digits) {accepts : Char → Bool}
    (haccepts : ∀ c, c.isDigit = true → accepts c = false) (rest : List Char) :
    Stops accepts (digits.toList ++ rest) :=
  .run h.1 h.2 haccepts rest

theorem beq_of_accepts {accepts : Char → Bool} {c d : Char} (hc : accepts c = true) (hd : accepts d = false) :
    (c == d) = false := by
  refine beq_eq_false_iff_ne.mpr fun h => ?_
  rw [h, hd] at hc
  cases hc

theorem isGap_of_accepts {accepts : Char → Bool} {c : Char} (hc : accepts c = true) (hspace : accepts ' ' = false)
    (htab : accepts '\t' = false) : isGap c = false := by
  rw [isGap, beq_of_accepts hc hspace, beq_of_accepts hc htab]
  rfl

theorem isGap_of_isNameStart {c : Char} (h : isNameStart c = true) : isGap c = false :=
  isGap_of_accepts h rfl rfl

theorem stops_of_isNameStart {cs : List Char} (h : ∃ c ∈ cs.head?, isNameStart c = true) {accepts : Char → Bool}
    (haccepts : ∀ c, isNameStart c = true → accepts c = false) (rest : List Char) : Stops accepts (cs ++ rest) := by
  obtain ⟨c, hc, hstart⟩ := h
  obtain ⟨cs, rfl⟩ := List.head?_eq_some_iff.mp hc
  exact .cons (haccepts c hstart)

theorem IsName.stops {name : String} (h : IsName name) {accepts : Char → Bool}
    (haccepts : ∀ c, isNameStart c = true → accepts c = false) (rest : List Char) :
    Stops accepts (name.toList ++ rest) :=
  stops_of_isNameStart h.1 haccepts rest

theorem parse_number {digits : String} {mode : RuleKind} {rest : List Char}
    (hdigits : IsNumeral digits) (hrest : Stops Char.isDigit rest) :
    number.parse mode (digits.toList ++ rest) = some (digits, rest) := by
  rw [number, Peg.parse_rule, Peg.parse_map,
    Peg.parse_several_char (by cases mode <;> decide) hdigits.1 hdigits.2 hrest]
  simp

theorem parse_identifier {name : String} {mode : RuleKind} {rest : List Char}
    (hname : IsName name) (hrest : Stops isNamePart rest) :
    identifier.parse mode (name.toList ++ rest) = some (name, rest) := by
  have hmode : mode.enter .sealed ≠ .spaced := by cases mode <;> decide
  obtain ⟨⟨c, hc, hstart⟩, hparts⟩ := hname
  obtain ⟨cs, hcs⟩ := List.head?_eq_some_iff.mp hc
  rw [hcs] at hparts
  have htail : ∀ c ∈ cs, isNamePart c = true := (List.forall_mem_cons.mp hparts).2
  rw [identifier, Peg.parse_rule, Peg.parse_map, hcs, List.cons_append,
    Peg.parse_char_many_char hmode hstart htail hrest]
  show some (String.ofList (c :: cs), rest) = some (name, rest)
  rw [← hcs, String.ofList_toList]

end IsaForge.Grammar

namespace IsaForge.Text

/-! ### The value of a numeral -/

/-- The number that a run of decimal digits stands for. -/
def numeralValue (digits : String) : Nat :=
  Nat.ofDigitChars 10 digits.toList 0

theorem isDigit_eq (c : Char) : c.isDigit = ('0' ≤ c && c ≤ '9') := by
  simp only [Char.isDigit, Char.le_def, ge_iff_le]

theorem digitValue?_ten (c : Char) :
    digitValue? 10 c = if c.isDigit then some (c.toNat - '0'.toNat) else none := by
  simp only [digitValue?, ← isDigit_eq]
  by_cases hc : c.isDigit = true
  · have hle : c.toNat ≤ '9'.toNat := by
      simp only [isDigit_eq, Bool.and_eq_true, decide_eq_true_eq] at hc
      exact UInt32.le_iff_toNat_le.mp hc.2
    rw [if_pos hc, if_pos hc, Option.filter_some, if_pos]
    simp only [Char.reduceToNat] at hle ⊢
    simp only [decide_eq_true_eq]
    omega
  · -- a letter stands for ten at least
    rw [if_neg hc, if_neg hc]
    split
    · simp
    · split <;> simp

theorem readDigits_ten_eq_some_iff {value n : Nat} {cs : List Char} :
    readDigits 10 value cs = some n ↔
      (∀ c ∈ cs, c.isDigit = true) ∧ n = Nat.ofDigitChars 10 cs value := by
  induction cs generalizing value with
  | nil =>
    rw [readDigits, Nat.ofDigitChars_nil, Option.some.injEq, eq_comm]
    exact ⟨fun h => ⟨nofun, h⟩, And.right⟩
  | cons c cs ih =>
    rw [readDigits, digitValue?_ten]
    by_cases hc : c.isDigit = true
    · simp [hc, ih, Nat.ofDigitChars_cons, Nat.mul_comm]
    · simp [hc]

theorem readIndex?_eq_some_iff {digits : String} {n : Nat} :
    readIndex? digits = some n ↔
      (∀ c ∈ digits.toList, c.isDigit = true) ∧ n = numeralValue digits ∧ n < wordLimit := by
  rw [readIndex?, Option.filter_eq_some_iff, readDigits_ten_eq_some_iff, numeralValue]
  simp [and_assoc]

end IsaForge.Text
