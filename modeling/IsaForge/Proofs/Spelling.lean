import IsaForge.Proofs.PatternText

/-!
The texts that a grammar reads. `Peg.Spells` says how a value that was read is spelled in the text in front of what is
left, with one law for each way of building a grammar; it is the converse of reading a spelling back. For bit patterns it
gives that every pattern that can be read is its tokens as written, with gaps (`Pattern.parse_spelling`).
-/

namespace IsaForge.Grammar

/-- What may stand between two items: nothing, or a gap where gaps are skipped. -/
def RuleKind.Between (mode : RuleKind) (gap : List Char) : Prop :=
  IsGap gap ∧ (mode ≠ .spaced → gap = [])

theorem RuleKind.between_nil (mode : RuleKind) : mode.Between [] :=
  ⟨nofun, fun _ => rfl⟩

theorem RuleKind.exists_between (mode : RuleKind) (cs : List Char) :
    ∃ gap, mode.Between gap ∧ cs = gap ++ mode.skip cs := by
  cases mode with
  | spaced =>
    refine ⟨cs.takeWhile isGap, ⟨fun c hc => ?_, nofun⟩, List.takeWhile_append_dropWhile.symm⟩
    exact List.mem_takeWhile_imp hc
  | joined | sealed => exact ⟨[], between_nil _, rfl⟩

namespace Peg

variable {ρ α β : Type} {mode : RuleKind}

/-- Whatever `g` reads stands in front of what is left, and `R` holds of its value and its text. -/
def Spells (g : Peg ρ α) (mode : RuleKind) (R : α → List Char → Prop) : Prop :=
  ∀ (cs : List Char) (x : α) (rest : List Char), g.parse mode cs = some (x, rest) →
    ∃ text, cs = text ++ rest ∧ R x text

theorem Spells.imp {g : Peg ρ α} {R S : α → List Char → Prop} (h : g.Spells mode R)
    (himp : ∀ x text, R x text → S x text) : g.Spells mode S := by
  intro cs x rest hparse
  obtain ⟨text, hcs, htext⟩ := h _ _ _ hparse
  exact ⟨text, hcs, himp x text htext⟩

/-! ### One law for each constructor -/

theorem spells_char (accepts : Char → Bool) :
    (char accepts : Peg ρ Char).Spells mode fun c text => accepts c = true ∧ text = [c] := by
  intro cs x rest h
  cases cs with
  | nil => rw [parse_char_nil] at h; cases h
  | cons c cs =>
    rw [parse_char_cons] at h
    split at h
    · next hc => cases h; exact ⟨[x], rfl, hc, rfl⟩
    · cases h

theorem spells_exactly (c : Char) :
    (exactly c : Peg ρ Char).Spells mode fun _ text => text = [c] := by
  refine (spells_char _).imp ?_
  rintro d text ⟨hd, rfl⟩
  rw [eq_of_beq hd]

/-- The text of two items in a row. -/
def InRow (mode : RuleKind) (R : α → List Char → Prop) (S : β → List Char → Prop) (x : α) (y : β)
    (text : List Char) : Prop :=
  ∃ first gap second, R x first ∧ mode.Between gap ∧ S y second ∧ text = first ++ gap ++ second

theorem parse_seq_eq_some {first : Peg ρ α} {second : Peg ρ β} {cs rest : List Char} {z : α × β}
    (h : (seq first second).parse mode cs = some (z, rest)) :
    ∃ mid, first.parse mode cs = some (z.1, mid) ∧
      second.parse mode (mode.skip mid) = some (z.2, rest) := by
  rw [parse_seq, Option.bind_eq_some_iff] at h
  obtain ⟨⟨x, mid⟩, hfirst, h⟩ := h
  obtain ⟨⟨y, left⟩, hsecond, hz⟩ := Option.map_eq_some_iff.mp h
  cases hz
  exact ⟨mid, hfirst, hsecond⟩

theorem parse_map_eq_some {f : α → β} {item : Peg ρ α} {cs rest : List Char} {y : β}
    (h : (map f item).parse mode cs = some (y, rest)) :
    ∃ x, item.parse mode cs = some (x, rest) ∧ f x = y := by
  rw [parse_map, Option.map_eq_some_iff] at h
  obtain ⟨⟨x, left⟩, hitem, hy⟩ := h
  cases hy
  exact ⟨x, hitem, rfl⟩

theorem parse_before_eq_some {first : Peg ρ α} {second : Peg ρ β} {cs rest : List Char} {y : β}
    (h : (before first second).parse mode cs = some (y, rest)) :
    ∃ x mid, first.parse mode cs = some (x, mid) ∧
      second.parse mode (mode.skip mid) = some (y, rest) := by
  obtain ⟨z, hseq, rfl⟩ := parse_map_eq_some h
  exact ⟨z.1, parse_seq_eq_some hseq⟩

theorem parse_after_eq_some {first : Peg ρ α} {second : Peg ρ β} {cs rest : List Char} {x : α}
    (h : (after first second).parse mode cs = some (x, rest)) :
    ∃ y mid, first.parse mode cs = some (x, mid) ∧
      second.parse mode (mode.skip mid) = some (y, rest) := by
  obtain ⟨z, hseq, rfl⟩ := parse_map_eq_some h
  exact ⟨z.2, parse_seq_eq_some hseq⟩

theorem parse_finish_eq_some {name : ρ} {cs rest : List Char} {x : Unit}
    (h : (finish name).parse mode cs = some (x, rest)) : cs = [] := by
  rw [parse_finish] at h
  by_contra hne
  rw [if_neg hne] at h
  cases h

theorem Spells.seq {first : Peg ρ α} {second : Peg ρ β} {R : α → List Char → Prop}
    {S : β → List Char → Prop} (h₁ : first.Spells mode R) (h₂ : second.Spells mode S) :
    (seq first second).Spells mode fun z text => InRow mode R S z.1 z.2 text := by
  intro cs z rest h
  obtain ⟨mid, hfirst, hsecond⟩ := parse_seq_eq_some h
  obtain ⟨t, rfl, ht⟩ := h₁ _ _ _ hfirst
  obtain ⟨u, hskip, hu⟩ := h₂ _ _ _ hsecond
  obtain ⟨gap, hgap, hmid⟩ := mode.exists_between mid
  refine ⟨t ++ gap ++ u, ?_, t, gap, u, ht, hgap, hu, rfl⟩
  rw [hmid, hskip]
  simp only [List.append_assoc]

theorem Spells.map {f : α → β} {item : Peg ρ α} {R : α → List Char → Prop}
    (h : item.Spells mode R) :
    (map f item).Spells mode fun y text => ∃ x, f x = y ∧ R x text := by
  intro cs y rest hparse
  obtain ⟨x, hitem, hy⟩ := parse_map_eq_some hparse
  obtain ⟨text, hcs, htext⟩ := h _ _ _ hitem
  exact ⟨text, hcs, x, hy, htext⟩

theorem Spells.before {first : Peg ρ α} {second : Peg ρ β} {R : α → List Char → Prop}
    {S : β → List Char → Prop} (h₁ : first.Spells mode R) (h₂ : second.Spells mode S) :
    (before first second).Spells mode fun y text => ∃ x, InRow mode R S x y text := by
  refine (h₁.seq h₂).map.imp ?_
  rintro _ text ⟨z, rfl, hz⟩
  exact ⟨z.1, hz⟩

theorem Spells.after {first : Peg ρ α} {second : Peg ρ β} {R : α → List Char → Prop}
    {S : β → List Char → Prop} (h₁ : first.Spells mode R) (h₂ : second.Spells mode S) :
    (after first second).Spells mode fun x text => ∃ y, InRow mode R S x y text := by
  refine (h₁.seq h₂).map.imp ?_
  rintro _ text ⟨z, rfl, hz⟩
  exact ⟨z.2, hz⟩

theorem Spells.rule {name : ρ} {kind : RuleKind} {body : Peg ρ α} {R : α → List Char → Prop}
    (h : body.Spells (mode.enter kind) R) : (rule name kind body).Spells mode R := by
  intro cs x rest hparse
  rw [parse_rule] at hparse
  exact h _ _ _ hparse

theorem Spells.choice {first second : Peg ρ α} {R : α → List Char → Prop}
    (h₁ : first.Spells mode R) (h₂ : second.Spells mode R) : (choice first second).Spells mode R := by
  intro cs x rest hparse
  rw [parse_choice, Option.or_eq_some_iff] at hparse
  rcases hparse with hparse | ⟨_, hparse⟩
  · exact h₁ _ _ _ hparse
  · exact h₂ _ _ _ hparse

theorem Spells.optional {item : Peg ρ α} {R : α → List Char → Prop} (h : item.Spells mode R) :
    (optional item).Spells mode fun x? text => x?.elim (text = []) (R · text) := by
  intro cs x? rest hparse
  rw [parse_optional] at hparse
  cases hitem : item.parse mode cs with
  | none =>
    rw [hitem] at hparse
    cases hparse
    exact ⟨[], rfl, rfl⟩
  | some read =>
    rw [hitem] at hparse
    cases hparse
    exact h _ _ _ hitem

/-- The text of items in a row, each with what stands behind it. -/
inductive InRows (mode : RuleKind) (R : α → List Char → Prop) : List α → List Char → Prop
  | nil : InRows mode R [] []
  | cons {x : α} {xs : List α} {first gap others : List Char} : R x first → mode.Between gap →
    InRows mode R xs others → InRows mode R (x :: xs) (first ++ gap ++ others)

private theorem iterate_spells {item : Peg ρ α} {R : α → List Char → Prop} (h : item.Spells mode R)
    (limit : Nat) (cs : List Char) :
    let read := iterate (fun cs => item.parse mode (mode.skip cs)) limit cs
    ∃ gap text, mode.Between gap ∧ cs = gap ++ text ++ read.2 ∧ InRows mode R read.1 text := by
  induction limit generalizing cs with
  | zero => exact ⟨[], [], mode.between_nil, rfl, .nil⟩
  | succ limit ih =>
    rw [iterate]
    split
    · exact ⟨[], [], mode.between_nil, rfl, .nil⟩
    · next x mid hitem =>
      obtain ⟨first, hfirst, hx⟩ := h _ _ _ hitem
      obtain ⟨gap, hgap, hcs⟩ := mode.exists_between cs
      obtain ⟨gap', text, hgap', hmid, hrow⟩ := ih mid
      refine ⟨gap, first ++ gap' ++ text, hgap, ?_, .cons hx hgap' hrow⟩
      simp only [List.append_assoc] at hmid ⊢
      rw [← hmid, ← hfirst, ← hcs]

theorem Spells.many {item : Peg ρ α} {R : α → List Char → Prop} (h : item.Spells mode R) :
    (many item).Spells mode (InRows mode R) := by
  intro cs xs rest hparse
  rw [parse] at hparse
  split at hparse
  · cases hparse
    exact ⟨[], rfl, .nil⟩
  · next x mid hitem =>
    obtain ⟨first, rfl, hx⟩ := h _ _ _ hitem
    obtain ⟨gap, text, hgap, hmid, hrow⟩ := iterate_spells h mid.length mid
    cases hparse
    refine ⟨first ++ gap ++ text, ?_, .cons hx hgap hrow⟩
    simp only [List.append_assoc] at hmid ⊢
    rw [← hmid]

theorem Spells.several {item : Peg ρ α} {R : α → List Char → Prop} (h : item.Spells mode R) :
    (several item).Spells mode fun xs text => xs ≠ [] ∧ InRows mode R xs text := by
  refine (h.seq h.many).map.imp ?_
  rintro _ _ ⟨⟨x, xs⟩, rfl, first, gap, others, hx, hgap, hxs, rfl⟩
  exact ⟨List.cons_ne_nil _ _, .cons hx hgap hxs⟩

/-! ### Runs of characters -/

/-- Where gaps are not skipped, items in a row stand right behind each other. -/
theorem InRow.joined {R : α → List Char → Prop} {S : β → List Char → Prop} {x : α} {y : β}
    {text : List Char} (hmode : mode ≠ .spaced) (h : InRow mode R S x y text) :
    ∃ first second, R x first ∧ S y second ∧ text = first ++ second := by
  obtain ⟨first, gap, second, hx, hgap, hy, rfl⟩ := h
  rw [hgap.2 hmode, List.append_nil]
  exact ⟨first, second, hx, hy, rfl⟩

theorem InRows.chars {accepts : Char → Bool} {xs text : List Char} (hmode : mode ≠ .spaced)
    (h : InRows mode (fun c text => accepts c = true ∧ text = [c]) xs text) :
    text = xs ∧ ∀ c ∈ xs, accepts c = true := by
  induction h with
  | nil => exact ⟨rfl, nofun⟩
  | @cons c cs _ gap _ hc hgap _ ih =>
    obtain ⟨hc, rfl⟩ := hc
    obtain ⟨rfl, hcs⟩ := ih
    rw [hgap.2 hmode]
    exact ⟨rfl, List.forall_mem_cons.mpr ⟨hc, hcs⟩⟩

theorem spells_several_char (accepts : Char → Bool) (hmode : mode ≠ .spaced) :
    (several (char accepts : Peg ρ Char)).Spells mode fun cs text =>
      cs ≠ [] ∧ (∀ c ∈ cs, accepts c = true) ∧ text = cs := by
  refine (spells_char accepts).several.imp ?_
  rintro cs text ⟨hne, hrow⟩
  obtain ⟨htext, hcs⟩ := hrow.chars hmode
  exact ⟨hne, hcs, htext⟩

/-- A character of one class and a run of characters of another. -/
theorem spells_char_many_char (start part : Char → Bool) (hmode : mode ≠ .spaced) :
    (seq (char start : Peg ρ Char) (many (char part))).Spells mode fun z text =>
      start z.1 = true ∧ (∀ c ∈ z.2, part c = true) ∧ text = z.1 :: z.2 := by
  refine ((spells_char start).seq (spells_char part).many).imp ?_
  rintro ⟨c, cs⟩ text hrow
  obtain ⟨_, others, ⟨hc, rfl⟩, hcs, rfl⟩ := hrow.joined hmode
  obtain ⟨rfl, hcs⟩ := hcs.chars hmode
  exact ⟨hc, hcs, rfl⟩

end Peg

open Peg

theorem enter_joined_ne_spaced (mode : RuleKind) : mode.enter .joined ≠ .spaced := by
  cases mode <;> decide

theorem enter_sealed_ne_spaced (mode : RuleKind) : mode.enter .sealed ≠ .spaced := by
  cases mode <;> decide

theorem spells_number (mode : RuleKind) :
    number.Spells mode fun digits text => IsNumeral digits ∧ text = digits.toList := by
  refine ((spells_several_char _ (enter_sealed_ne_spaced mode)).map.imp ?_).rule
  rintro _ _ ⟨digits, rfl, hne, hdigits, rfl⟩
  rw [IsNumeral, String.toList_ofList]
  exact ⟨⟨hne, hdigits⟩, rfl⟩

/-- A text that was read to its end was read by its grammar. -/
theorem exists_parse_of_readAll {α : Type} {g : Peg Rule α} {cs : List Char} {x : α}
    (h : readAll g cs = .ok x) : ∃ rest, g.parse .spaced cs = some (x, rest) := by
  rw [readAll, Peg.read] at h
  cases hparse : g.parse .spaced cs with
  | none => rw [hparse] at h; cases h
  | some read =>
    rw [hparse] at h
    cases h
    exact ⟨read.2, rfl⟩

theorem isNamePart_of_isNameStart {c : Char} (h : isNameStart c = true) : isNamePart c = true := by
  rw [isNameStart, Bool.or_eq_true] at h
  rw [isNamePart, Char.isAlphanum, Bool.or_eq_true, Bool.or_eq_true]
  exact h.imp .inl id

theorem spells_identifier (mode : RuleKind) :
    identifier.Spells mode fun name text => IsName name ∧ text = name.toList := by
  refine ((spells_char_many_char _ _ (enter_sealed_ne_spaced mode)).map.imp ?_).rule
  rintro _ _ ⟨⟨c, cs⟩, rfl, hc, hcs, rfl⟩
  rw [IsName, String.toList_ofList]
  exact ⟨⟨⟨c, rfl, hc⟩, List.forall_mem_cons.mpr ⟨isNamePart_of_isNameStart hc, hcs⟩⟩, rfl⟩

end IsaForge.Grammar

/-! ### Bit patterns -/

namespace IsaForge.Pattern

open Grammar Peg

/-- A well-formed token and its text. -/
def IsWritten (t : PatternToken) (text : List Char) : Prop :=
  t.WellFormed ∧ text = t.text.toList

theorem spells_literalBits (mode : RuleKind) : literalBits.Spells mode IsWritten := by
  refine ((spells_several_char _ (enter_sealed_ne_spaced mode)).map.imp ?_).rule
  rintro _ _ ⟨cs, rfl, hne, hcs, rfl⟩
  refine ⟨fun hnil => hne (List.map_eq_nil_iff.mp hnil), ?_⟩
  rw [PatternToken.text, String.toList_ofList, List.map_map]
  refine ((List.map_congr_left fun c hc => ?_).trans (List.map_id _)).symm
  rcases eq_of_isBit (hcs c hc) with rfl | rfl <;> rfl

theorem spells_filler (mode : RuleKind) : filler.Spells mode IsWritten := by
  refine ((spells_several_char _ (enter_sealed_ne_spaced mode)).map.imp ?_).rule
  rintro _ _ ⟨cs, rfl, hne, hcs, rfl⟩
  refine ⟨List.length_pos_iff.mpr hne, ?_⟩
  rw [PatternToken.text, String.toList_ofList]
  exact List.eq_replicate_of_mem fun c hc => eq_of_beq (hcs c hc)

theorem spells_component (mode : RuleKind) :
    component.Spells mode fun component text =>
      component.WellFormed ∧ text = component.text.toList := by
  have hmode := enter_joined_ne_spaced mode
  refine (((spells_number _).seq ((spells_exactly ':').before
    (spells_number _)).optional).map.imp ?_).rule
  rintro _ text ⟨⟨hi, lo?⟩, rfl, hrow⟩
  obtain ⟨_, rest, ⟨hhi, rfl⟩, hlo, rfl⟩ := hrow.joined hmode
  cases lo? with
  | none =>
    cases hlo
    exact ⟨⟨hhi, nofun⟩, by simp [Component.text]⟩
  | some lo =>
    obtain ⟨_, hrow⟩ := hlo
    obtain ⟨_, _, rfl, ⟨hlo, rfl⟩, rfl⟩ := hrow.joined hmode
    refine ⟨⟨hhi, ?_⟩, by simp [Component.text]⟩
    rintro _ ⟨⟩
    exact hlo

theorem inRows_others {mode : RuleKind} (hmode : mode ≠ .spaced) {others : List Component}
    {text : List Char}
    (h : InRows mode (fun c text => ∃ bar : Char, InRow mode (fun _ text => text = ['|'])
      (fun c text => c.WellFormed ∧ text = c.text.toList) bar c text) others text) :
    (∀ component ∈ others, component.WellFormed) ∧ text = othersText others := by
  induction h with
  | nil => exact ⟨nofun, rfl⟩
  | cons hc hgap _ ih =>
    obtain ⟨_, hrow⟩ := hc
    obtain ⟨_, _, rfl, ⟨hc, rfl⟩, rfl⟩ := hrow.joined hmode
    obtain ⟨hothers, rfl⟩ := ih
    rw [hgap.2 hmode, List.append_nil]
    exact ⟨List.forall_mem_cons.mpr ⟨hc, hothers⟩, rfl⟩

theorem spells_immediate (mode : RuleKind) : immediate.Spells mode IsWritten := by
  have hmode := enter_joined_ne_spaced mode
  have hsign : ∀ mode, sign.Spells mode fun _ text => text = ['-'] :=
    fun mode => (spells_exactly '-').rule
  refine (((spells_exactly '\x7b').before ((hsign _).optional.seq ((spells_component _).seq
    (((spells_exactly '|').before (spells_component _)).many.after
      (spells_exactly '\x7d'))))).map.imp ?_).rule
  rintro _ text ⟨⟨sign?, lead, others⟩, rfl, _, hbraced⟩
  obtain ⟨_, _, rfl, hsigned, rfl⟩ := hbraced.joined hmode
  obtain ⟨signText, _, hsignText, hcomponents, rfl⟩ := hsigned.joined hmode
  obtain ⟨_, _, ⟨hlead, rfl⟩, ⟨_, hclosed⟩, rfl⟩ := hcomponents.joined hmode
  obtain ⟨_, _, hrows, rfl, rfl⟩ := hclosed.joined hmode
  obtain ⟨hothers, rfl⟩ := inRows_others hmode hrows
  refine ⟨List.forall_mem_cons.mpr ⟨hlead, hothers⟩, ?_⟩
  have hsignText : signText = if sign?.isSome then ['-'] else [] := by
    cases sign? with
    | none => exact hsignText
    | some sign => exact hsignText
  rw [toList_immediate, hsignText]
  rfl

theorem spells_namedField (mode : RuleKind) : namedField.Spells mode IsWritten := by
  have hmode := enter_joined_ne_spaced mode
  refine (((spells_identifier _).seq ((spells_exactly '[').before ((spells_number _).after
    (spells_exactly ']')))).map.imp ?_).rule
  rintro _ text ⟨⟨name, width⟩, rfl, hfield⟩
  obtain ⟨_, _, ⟨hname, rfl⟩, ⟨_, hbracketed⟩, rfl⟩ := hfield.joined hmode
  obtain ⟨_, _, rfl, ⟨_, hclosed⟩, rfl⟩ := hbracketed.joined hmode
  obtain ⟨_, _, ⟨hwidth, rfl⟩, rfl, rfl⟩ := hclosed.joined hmode
  exact ⟨⟨hname, hwidth⟩, by simp [PatternToken.text]⟩

theorem spells_token (mode : RuleKind) : token.Spells mode IsWritten :=
  (spells_literalBits mode).choice ((spells_filler mode).choice
    ((spells_immediate mode).choice (spells_namedField mode)))

/-- Tokens in a row as written, the last one with the gap at the end. -/
theorem exists_written {ts : List PatternToken} {text : List Char}
    (h : InRows .spaced IsWritten ts text) (hne : ts ≠ []) {back : List Char} (hback : IsGap back) :
    ∃ items, Writable items ∧ items.map Prod.fst = ts ∧ text ++ back = written items := by
  induction h with
  | nil => exact absurd rfl hne
  | @cons t ts _ gap others ht hgap hrows ih =>
    obtain ⟨ht, rfl⟩ := ht
    cases hrows with
    | nil =>
      refine ⟨[(t, gap ++ back)], ?_, rfl, by simp [written]⟩
      exact List.forall_mem_singleton.mpr ⟨ht, List.forall_mem_append.mpr ⟨hgap.1, hback⟩⟩
    | cons =>
      obtain ⟨items, hitems, hts, hwritten⟩ := ih (List.cons_ne_nil _ _)
      refine ⟨(t, gap) :: items, List.forall_mem_cons.mpr ⟨⟨ht, hgap.1⟩, hitems⟩, ?_, ?_⟩
      · rw [List.map_cons, hts]
      · rw [List.append_assoc, hwritten]
        rfl

/-- A pattern that can be read is its tokens as written, with gaps. -/
theorem parse_spelling {pattern : String} {ts : List PatternToken} (h : parse pattern = .ok ts) :
    ∃ gap items, IsGap gap ∧ Writable items ∧ items ≠ [] ∧ items.map Prod.fst = ts ∧
      pattern = String.ofList (gap ++ written items) := by
  obtain ⟨rest, hread⟩ := exists_parse_of_readAll h
  rw [tokens_eq, parse_rule, show RuleKind.spaced.enter .spaced = .spaced from rfl] at hread
  obtain ⟨_, mid, hstart, hbody⟩ := parse_before_eq_some hread
  obtain ⟨_, left, htokens, hfinish⟩ := parse_after_eq_some hbody
  cases hstart
  obtain ⟨front, hfront, hcs⟩ := RuleKind.spaced.exists_between pattern.toList
  obtain ⟨back, hback, hleft⟩ := RuleKind.spaced.exists_between left
  rw [parse_finish_eq_some hfinish, List.append_nil] at hleft
  obtain ⟨text, htext, hne, hrows⟩ := (spells_token _).several _ _ _ htokens
  obtain ⟨items, hitems, rfl, hwritten⟩ := exists_written hrows hne hback.1
  refine ⟨front, items, hfront.1, hitems, fun hnil => hne (List.map_eq_nil_iff.mpr hnil), rfl, ?_⟩
  rw [← hwritten, ← hleft, ← htext, ← hcs, String.ofList_toList]

end IsaForge.Pattern
