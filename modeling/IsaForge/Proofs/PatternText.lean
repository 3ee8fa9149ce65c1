import IsaForge.Proofs.Placement

/-!
Bit patterns as text. Every well-formed token is read back from its text (`parse_token`), if what follows cannot go on
with it. Only two runs of fixed bits, or two runs of bits that do not matter, can go on with each other; they are then read
as one token with the same pieces, so that a pattern written with any gaps is read back up to such mergers
(`parse_written`).
-/

namespace IsaForge

open Grammar Peg Text

theorem Text.toList_intercalate_cons (separator first : String) (others : List String) :
    (String.intercalate separator (first :: others)).toList =
      first.toList ++ others.flatMap fun other => separator.toList ++ other.toList := by
  rw [String.toList_intercalate]
  induction others generalizing first with
  | nil => simp
  | cons other others ih =>
    simp only [List.map_cons, List.intercalate_cons_cons] at ih ⊢
    rw [ih]
    simp

/-! ### Well-formed tokens -/

/-- The numerals of a component are numerals. -/
def Component.WellFormed (component : Component) : Prop :=
  IsNumeral component.hi ∧ ∀ lo ∈ component.lo?, IsNumeral lo

instance (component : Component) : Decidable component.WellFormed :=
  inferInstanceAs (Decidable (_ ∧ _))

/-- A token that can be written: it is not empty, and its numerals and names are such. -/
def PatternToken.WellFormed : PatternToken → Prop
  | .literal bits => bits ≠ []
  | .filler count => 0 < count
  | .immediate _ lead others => ∀ component ∈ lead :: others, component.WellFormed
  | .field name width => IsName name ∧ IsNumeral width

instance : DecidablePred PatternToken.WellFormed
  | .literal _ => inferInstanceAs (Decidable (_ ≠ _))
  | .filler _ => inferInstanceAs (Decidable (_ < _))
  | .immediate _ lead others =>
    inferInstanceAs (Decidable (∀ component ∈ lead :: others, component.WellFormed))
  | .field _ _ => inferInstanceAs (Decidable (_ ∧ _))

theorem Component.WellFormed.readable {component : Component} (h : component.WellFormed) :
    component.Readable := by
  refine ⟨h.1.2, ?_⟩
  cases hlo : component.lo? with
  | none => exact h.1.2
  | some lo => exact (h.2 lo hlo).2

theorem PatternToken.WellFormed.pieces_ne_nil {t : PatternToken} (h : t.WellFormed) :
    t.pieces ≠ [] := by
  cases t with
  | literal bits => exact fun hnil => h (List.map_eq_nil_iff.mp hnil)
  | filler count => simpa [PatternToken.pieces] using Nat.ne_of_gt h
  | immediate _ _ _ | field _ _ => exact List.cons_ne_nil _ _

namespace Pattern

/-- One token of a bit pattern. -/
def token : Peg Rule PatternToken :=
  .choice literalBits (.choice filler (.choice immediate namedField))

theorem tokens_eq :
    tokens = .rule .pattern .spaced (.before .start (.after (.several token) Grammar.finish)) := rfl

theorem consumes_token : token.consumes = true := rfl

/-! ### Runs -/

def isBit (c : Char) : Bool :=
  c == '0' || c == '1'

theorem parse_literalBits {mode : RuleKind} {bits : List Bool} {rest : List Char} (hne : bits ≠ [])
    (hrest : Stops isBit rest) :
    literalBits.parse mode ((PatternToken.literal bits).text.toList ++ rest) =
      some (.literal bits, rest) := by
  have hrun : ∀ c ∈ bits.map (fun bit => if bit then '1' else '0'), isBit c = true :=
    List.forall_mem_map.mpr fun bit _ => by cases bit <;> rfl
  have hback : bits.map (fun bit => (if bit then '1' else '0') == '1') = bits :=
    (List.map_congr_left fun bit _ => by cases bit <;> rfl).trans (List.map_id _)
  rw [literalBits, parse_rule, parse_map, PatternToken.text, String.toList_ofList]
  refine (congrArg _ (parse_several_char (by cases mode <;> decide) (by simpa using hne) hrun
    hrest)).trans ?_
  simp [Function.comp_def, hback]

theorem parse_literalBits_none {mode : RuleKind} {cs : List Char} (h : Stops isBit cs) :
    literalBits.parse mode cs = none := by
  rw [literalBits, parse_rule, parse_map]
  exact congrArg _ (parse_several_char_none h)

theorem parse_filler {mode : RuleKind} {count : Nat} {rest : List Char} (hpos : 0 < count)
    (hrest : Stops (· == '.') rest) :
    filler.parse mode ((PatternToken.filler count).text.toList ++ rest) =
      some (.filler count, rest) := by
  have hrun : ∀ c ∈ List.replicate count '.', (c == '.') = true :=
    fun c h => by rw [List.eq_of_mem_replicate h]; rfl
  have hne : List.replicate count '.' ≠ [] := by simp; omega
  rw [filler, parse_rule, parse_map, PatternToken.text, String.toList_ofList, exactly,
    parse_several_char (by cases mode <;> decide) hne hrun hrest]
  simp

theorem parse_filler_none {mode : RuleKind} {cs : List Char} (h : Stops (· == '.') cs) :
    filler.parse mode cs = none := by
  rw [filler, parse_rule, parse_map, exactly, parse_several_char_none h]
  rfl

/-! ### Immediates and named fields -/

theorem parse_component {mode : RuleKind} {component : Component} {rest : List Char}
    (hcomponent : component.WellFormed) (hrest : Stops (fun c => c.isDigit || c == ':') rest) :
    Pattern.component.parse mode (component.text.toList ++ rest) = some (component, rest) := by
  obtain ⟨hi, lo?⟩ := component
  have hmode : mode.enter .joined = .joined := by cases mode <;> rfl
  obtain ⟨hdigit, hcolon⟩ := hrest.of_or
  rw [Pattern.component, parse_rule, hmode, parse_map, parse_seq]
  cases lo? with
  | none =>
    have hnone : (exactly ':' : Peg Rule Char).parse .joined rest = none := parse_char_none hcolon
    rw [Component.text, parse_number hcomponent.1 hdigit]
    simp [RuleKind.skip, parse_optional, parse_before, hnone]
  | some lo =>
    have hlo : IsNumeral lo := hcomponent.2 lo rfl
    have htext : (Component.text ⟨hi, some lo⟩).toList ++ rest =
        hi.toList ++ ':' :: (lo.toList ++ rest) := by simp [Component.text]
    rw [htext, parse_number hcomponent.1 (.cons rfl)]
    simp [RuleKind.skip, parse_optional, parse_before, parse_exactly_self, parse_number hlo hdigit]

/-- What is written behind the leading component of an immediate. -/
def othersText (others : List Component) : List Char :=
  others.flatMap fun component => '|' :: component.text.toList

theorem stops_othersText (others : List Component) (rest : List Char) :
    Stops (fun c => c.isDigit || c == ':') (othersText others ++ '\x7d' :: rest) := by
  cases others with
  | nil => exact .cons rfl
  | cons component others => exact .cons rfl

theorem toList_immediate (signed : Bool) (lead : Component) (others : List Component) :
    (PatternToken.immediate signed lead others).text.toList =
      '\x7b' :: (if signed then ['-'] else []) ++
        (lead.text.toList ++ (othersText others ++ ['\x7d'])) := by
  have hjoin : (String.intercalate "|" ((lead :: others).map Component.text)).toList =
      lead.text.toList ++ othersText others := by
    rw [List.map_cons, toList_intercalate_cons, List.flatMap_map]
    rfl
  rw [PatternToken.text]
  simp only [String.toList_append, hjoin]
  cases signed <;> simp

theorem steps_others {others : List Component} (hothers : ∀ component ∈ others, component.WellFormed)
    (rest : List Char) :
    Steps (fun cs => (before (exactly '|') Pattern.component : Peg Rule Component).parse .joined
        (RuleKind.joined.skip cs))
      (othersText others ++ '\x7d' :: rest) others ('\x7d' :: rest) := by
  induction others with
  | nil => exact .stop (by simp [othersText, RuleKind.skip, parse_before, exactly, parse_char_cons])
  | cons component others ih =>
    obtain ⟨hcomponent, hothers⟩ := List.forall_mem_cons.mp hothers
    refine .more ?_ (ih hothers)
    simp only [RuleKind.skip, othersText, List.flatMap_cons, List.cons_append, List.append_assoc]
    rw [parse_before, parse_exactly_self]
    exact parse_component hcomponent (stops_othersText others rest)

theorem parse_many_others {others : List Component}
    (hothers : ∀ component ∈ others, component.WellFormed) (rest : List Char) :
    (many (before (exactly '|') Pattern.component) : Peg Rule (List Component)).parse .joined
      (othersText others ++ '\x7d' :: rest) = some (others, '\x7d' :: rest) :=
  parse_many_steps rfl rfl (steps_others hothers rest)

theorem parse_sign_none {component : Component} (hcomponent : component.WellFormed)
    (rest : List Char) : sign.parse .joined (component.text.toList ++ rest) = none := by
  have hminus : ∀ c : Char, c.isDigit = true → (c == '-') = false :=
    fun c hc => beq_of_accepts hc (by decide)
  have hstops : Stops (· == '-') (component.text.toList ++ rest) := by
    obtain ⟨hi, lo?⟩ := component
    cases lo? with
    | none => exact hcomponent.1.stops hminus rest
    | some lo =>
      rw [Component.text, String.toList_append, String.toList_append, List.append_assoc,
        List.append_assoc]
      exact hcomponent.1.stops hminus _
  exact parse_char_none hstops

theorem parse_immediate {mode : RuleKind} {signed : Bool} {lead : Component}
    {others : List Component} (hcomponents : ∀ component ∈ lead :: others, component.WellFormed)
    (rest : List Char) :
    immediate.parse mode ((PatternToken.immediate signed lead others).text.toList ++ rest) =
      some (.immediate signed lead others, rest) := by
  obtain ⟨hlead, hothers⟩ := List.forall_mem_cons.mp hcomponents
  have hmode : mode.enter .joined = .joined := by cases mode <;> rfl
  have hbody : (seq component (after (many (before (exactly '|') component)) (exactly '\x7d'))).parse
      .joined (lead.text.toList ++ (othersText others ++ '\x7d' :: rest)) =
        some ((lead, others), rest) := by
    rw [parse_seq, parse_component hlead (stops_othersText others rest)]
    simp [RuleKind.skip, parse_after, parse_many_others hothers, parse_exactly_self]
  have htext : (PatternToken.immediate signed lead others).text.toList ++ rest =
      '\x7b' :: ((if signed then ['-'] else []) ++
        (lead.text.toList ++ (othersText others ++ '\x7d' :: rest))) := by
    simp [toList_immediate]
  rw [immediate, parse_rule, hmode, parse_map, parse_before, htext, parse_exactly_self]
  rw [Option.bind_some, parse_seq, parse_optional]
  cases signed with
  | true =>
    have hsign : sign.parse .joined ('-' :: (lead.text.toList ++ (othersText others ++
        '\x7d' :: rest))) = some ('-', lead.text.toList ++ (othersText others ++ '\x7d' :: rest)) :=
      parse_exactly_self '-'
    simp [RuleKind.skip, hsign, hbody]
  | false => simp [RuleKind.skip, parse_sign_none hlead, hbody]

theorem parse_immediate_none {mode : RuleKind} {cs : List Char} (h : Stops (· == '\x7b') cs) :
    immediate.parse mode cs = none := by
  rw [immediate, parse_rule, parse_map, parse_before, exactly, parse_char_none h]
  rfl

theorem parse_namedField {mode : RuleKind} {name width : String} (hname : IsName name)
    (hwidth : IsNumeral width) (rest : List Char) :
    namedField.parse mode ((PatternToken.field name width).text.toList ++ rest) =
      some (.field name width, rest) := by
  have hmode : mode.enter .joined = .joined := by cases mode <;> rfl
  have htext : (PatternToken.field name width).text.toList ++ rest =
      name.toList ++ '[' :: (width.toList ++ ']' :: rest) := by simp [PatternToken.text]
  have hwidth' : number.parse .joined (width.toList ++ ']' :: rest) = some (width, ']' :: rest) :=
    parse_number hwidth (.cons rfl)
  rw [namedField, parse_rule, hmode, parse_map, parse_seq, htext,
    parse_identifier hname (.cons rfl)]
  simp [RuleKind.skip, parse_before, parse_after, parse_exactly_self, hwidth']

/-! ### Tokens -/

/-- The character that the text of a token begins with. -/
def Begins : PatternToken → Char → Prop
  | .literal _, c => isBit c = true
  | .filler _, c => c = '.'
  | .immediate .., c => c = '\x7b'
  | .field .., c => isNameStart c = true

/-- What follows a token does not go on with it. -/
def Ends : PatternToken → List Char → Prop
  | .literal _, rest => Stops isBit rest
  | .filler _, rest => Stops (· == '.') rest
  | .immediate .., _ => True
  | .field .., _ => True

theorem stops_token {t : PatternToken} (ht : t.WellFormed) {accepts : Char → Bool}
    (haccepts : ∀ c, Begins t c → accepts c = false) (rest : List Char) :
    Stops accepts (t.text.toList ++ rest) := by
  cases t with
  | literal bits =>
    cases bits with
    | nil => exact absurd rfl ht
    | cons bit bits =>
      rw [PatternToken.text, String.toList_ofList, List.map_cons]
      exact .cons (haccepts _ (by cases bit <;> rfl))
  | filler count =>
    cases count with
    | zero => exact absurd ht (Nat.lt_irrefl 0)
    | succ count =>
      rw [PatternToken.text, String.toList_ofList, List.replicate_succ]
      exact .cons (haccepts _ rfl)
  | immediate signed lead others =>
    rw [toList_immediate]
    exact .cons (haccepts _ rfl)
  | field name width =>
    rw [PatternToken.text, String.toList_append, String.toList_append, String.toList_append,
      List.append_assoc, List.append_assoc, List.append_assoc]
    exact ht.1.stops haccepts _

theorem isBit_of_isNameStart {c : Char} (hc : isNameStart c = true) : isBit c = false := by
  rw [isBit, beq_of_accepts hc (by decide), beq_of_accepts hc (by decide)]
  rfl

theorem eq_of_isBit {c : Char} (hc : isBit c = true) : c = '0' ∨ c = '1' := by
  simpa [isBit] using hc

theorem parse_token {mode : RuleKind} {t : PatternToken} {rest : List Char} (ht : t.WellFormed)
    (hrest : Ends t rest) : token.parse mode (t.text.toList ++ rest) = some (t, rest) := by
  rw [token, parse_choice, parse_choice, parse_choice]
  cases t with
  | literal bits => rw [parse_literalBits ht hrest]; rfl
  | filler count =>
    have hbit : Stops isBit _ := stops_token ht (by rintro c rfl; rfl) rest
    rw [parse_literalBits_none hbit, parse_filler ht hrest]
    rfl
  | immediate signed lead others =>
    have hbit : Stops isBit _ := stops_token ht (by rintro c rfl; rfl) rest
    have hdot : Stops (· == '.') _ := stops_token ht (by rintro c rfl; rfl) rest
    rw [parse_literalBits_none hbit, parse_filler_none hdot, parse_immediate ht]
    rfl
  | field name width =>
    have hbit : Stops isBit _ := stops_token ht (fun c hc => isBit_of_isNameStart hc) rest
    have hdot : Stops (· == '.') _ :=
      stops_token ht (fun c hc => beq_of_accepts hc (by decide)) rest
    have hbrace : Stops (· == '\x7b') _ :=
      stops_token ht (fun c hc => beq_of_accepts hc (by decide)) rest
    rw [parse_literalBits_none hbit, parse_filler_none hdot, parse_immediate_none hbrace,
      parse_namedField ht.1 ht.2]
    rfl

/-! ### Patterns -/

/-- Two tokens that are read as one where nothing is between them. -/
def merged? : PatternToken → PatternToken → Option PatternToken
  | .literal first, .literal second => some (.literal (first ++ second))
  | .filler first, .filler second => some (.filler (first + second))
  | _, _ => none

theorem merged?_spec {first second t : PatternToken} (h : merged? first second = some t)
    (hfirst : first.WellFormed) :
    t.text.toList = first.text.toList ++ second.text.toList ∧
      t.pieces = first.pieces ++ second.pieces ∧ t.WellFormed := by
  unfold merged? at h
  split at h <;> cases h
  · exact ⟨by simp [PatternToken.text], by simp [PatternToken.pieces],
      fun hnil => hfirst (List.append_eq_nil_iff.mp hnil).1⟩
  · exact ⟨by simp [PatternToken.text], by simp [PatternToken.pieces], Nat.add_pos_left hfirst _⟩

theorem ends_of_not_merged {first second : PatternToken} (h : merged? first second = none)
    (hsecond : second.WellFormed) (rest : List Char) : Ends first (second.text.toList ++ rest) := by
  cases first with
  | literal bits =>
    refine stops_token hsecond (fun c hc => ?_) rest
    cases second with
    | literal _ => cases h
    | filler _ | immediate _ _ _ => cases hc; rfl
    | field _ _ => exact isBit_of_isNameStart hc
  | filler count =>
    refine stops_token hsecond (fun c hc => ?_) rest
    cases second with
    | literal _ => rcases eq_of_isBit hc with rfl | rfl <;> rfl
    | filler _ => cases h
    | immediate _ _ _ => cases hc; rfl
    | field _ _ => exact beq_of_accepts hc (by decide)
  | immediate _ _ _ | field _ _ => trivial

theorem ends_of_stops {rest : List Char} (h : Stops (fun c => isBit c || c == '.') rest)
    (t : PatternToken) : Ends t rest := by
  cases t with
  | literal _ => exact fun c hc => (Bool.or_eq_false_iff.mp (h c hc)).1
  | filler _ => exact fun c hc => (Bool.or_eq_false_iff.mp (h c hc)).2
  | immediate _ _ _ | field _ _ => trivial

/-- Tokens as written, each with the gap behind it. -/
def written (items : List (PatternToken × List Char)) : List Char :=
  items.flatMap fun item => item.1.text.toList ++ item.2

/-- Tokens that can be written and gaps that are such. -/
def Writable (items : List (PatternToken × List Char)) : Prop :=
  ∀ item ∈ items, item.1.WellFormed ∧ IsGap item.2

instance (items : List (PatternToken × List Char)) : Decidable (Writable items) :=
  inferInstanceAs (Decidable (∀ item ∈ items, _ ∧ _))

theorem ends_written {t : PatternToken} {gap : List Char} {items : List (PatternToken × List Char)}
    (hgap : IsGap gap) (hitems : Writable items)
    (hmerge : gap = [] → ∀ item ∈ items.head?, merged? t item.1 = none) :
    Ends t (gap ++ written items) := by
  cases gap with
  | cons c gap =>
    refine ends_of_stops (.cons ?_) t
    have hc : c = ' ' ∨ c = '\t' := by simpa [isGap] using hgap c List.mem_cons_self
    rcases hc with rfl | rfl <;> rfl
  | nil =>
    cases items with
    | nil => exact ends_of_stops .nil t
    | cons item items =>
      rw [List.nil_append, written, List.flatMap_cons, List.append_assoc]
      exact ends_of_not_merged (hmerge rfl item rfl) (hitems item List.mem_cons_self).1 _

theorem stops_gap_token {t : PatternToken} (ht : t.WellFormed) (rest : List Char) :
    Stops isGap (t.text.toList ++ rest) := by
  refine stops_token ht (fun c hc => ?_) rest
  cases t with
  | literal _ => rcases eq_of_isBit hc with rfl | rfl <;> rfl
  | filler _ | immediate _ _ _ => cases hc; rfl
  | field _ _ => exact isGap_of_isNameStart hc

/-- Reading goes through written tokens to the gap behind the last one. -/
theorem steps_written (items : List (PatternToken × List Char)) (hitems : Writable items)
    {gap : List Char} (hgap : IsGap gap) :
    ∃ ts left, Steps (fun cs => token.parse .spaced (RuleKind.spaced.skip cs)) (gap ++ written items)
        ts left ∧
      IsGap left ∧ (∀ t ∈ ts, t.WellFormed) ∧ pieces ts = pieces (items.map Prod.fst) := by
  match items with
  | [] =>
    refine ⟨[], gap, ?_, hgap, nofun, rfl⟩
    have hskip : RuleKind.spaced.skip gap = [] := by simpa using skip_gap hgap .nil
    rw [written, List.flatMap_nil, List.append_nil]
    exact .stop (by rw [hskip]; rfl)
  | (t, g) :: rest =>
    obtain ⟨⟨ht, hg⟩, hrest⟩ := List.forall_mem_cons.mp hitems
    by_cases hmerge : g = [] → ∀ item ∈ rest.head?, merged? t item.1 = none
    · obtain ⟨ts, left, hsteps, hleft, hts, hpieces⟩ := steps_written rest hrest hg
      refine ⟨t :: ts, left, .more ?_ hsteps, hleft, List.forall_mem_cons.mpr ⟨ht, hts⟩, ?_⟩
      · have htext : written ((t, g) :: rest) = t.text.toList ++ (g ++ written rest) := by
          simp [written]
        rw [htext, skip_gap hgap (stops_gap_token ht _)]
        exact parse_token ht (ends_written hg hrest hmerge)
      · simp only [pieces, List.map_cons, List.flatMap_cons] at hpieces ⊢
        rw [hpieces]
    · -- The first two tokens are read as one, so that there is one token less to read.
      simp only [not_forall] at hmerge
      obtain ⟨rfl, ⟨next, g'⟩, hnext, hmerge⟩ := hmerge
      obtain ⟨rest, rfl⟩ : ∃ rest', rest = (next, g') :: rest' := List.head?_eq_some_iff.mp hnext
      obtain ⟨both, hboth⟩ := Option.ne_none_iff_exists'.mp hmerge
      obtain ⟨htext, hpieces, hwf⟩ := merged?_spec hboth ht
      obtain ⟨⟨-, hg'⟩, hrest⟩ := List.forall_mem_cons.mp hrest
      obtain ⟨ts, left, hsteps, hleft, hts, hread⟩ := steps_written ((both, g') :: rest)
        (List.forall_mem_cons.mpr ⟨⟨hwf, hg'⟩, hrest⟩) hgap
      refine ⟨ts, left, ?_, hleft, hts, ?_⟩
      · simpa only [written, List.flatMap_cons, htext, List.append_nil, List.append_assoc]
          using hsteps
      · simpa only [pieces, List.map_cons, List.flatMap_cons, hpieces, List.append_assoc]
          using hread
termination_by items.length

/-- A pattern with any gaps before, between and behind its tokens is read back, up to the merging of runs. -/
theorem parse_written {items : List (PatternToken × List Char)} (hne : items ≠ [])
    (hitems : Writable items) {gap : List Char} (hgap : IsGap gap) :
    ∃ ts, parse (String.ofList (gap ++ written items)) = .ok ts ∧ (∀ t ∈ ts, t.WellFormed) ∧
      pieces ts = pieces (items.map Prod.fst) := by
  obtain ⟨ts, rest, hsteps, hrest, hts, hpieces⟩ := steps_written items hitems hgap
  refine ⟨ts, ?_, hts, hpieces⟩
  cases hsteps with
  | stop h =>
    obtain ⟨item, items, rfl⟩ := List.exists_cons_of_ne_nil hne
    have hitem := (hitems item List.mem_cons_self).1.pieces_ne_nil
    exact absurd (List.append_eq_nil_iff.mp hpieces.symm).1 hitem
  | @more _ _ _ t ts hfirst hmore =>
    obtain ⟨left, hseveral, hskip⟩ := parse_several_of_steps consumes_token hfirst hmore
    have hleft : RuleKind.spaced.skip left = [] := by
      rw [hskip]
      simpa using skip_gap hrest .nil
    have hread : tokens.parse .spaced (gap ++ written items) = some (t :: ts, []) := by
      have hmode : RuleKind.spaced.enter .spaced = .spaced := rfl
      have hstart : (start : Peg Rule Unit).parse .spaced (gap ++ written items) =
        some ((), gap ++ written items) := rfl
      rw [tokens_eq, parse_rule, hmode, parse_before, hstart, Option.bind_some, parse_after, hseveral,
        Option.bind_some, hleft, Grammar.finish, parse_finish]
      rfl
    rw [parse, Grammar.readAll, Peg.read, String.toList_ofList, hread]
    rfl

end Pattern

/-! ### Layouts -/

namespace PatternToken

/-- How many bits a token takes. -/
def width : PatternToken → Nat
  | .literal bits => bits.length
  | .filler count => count
  | .immediate _ lead others =>
    ((lead :: others).map fun component => component.range.hi - component.range.lo + 1).sum
  | .field _ width => numeralValue width

/-- The components of a token keep within a 32-bit immediate, and a named field is not empty. -/
def Legal : PatternToken → Prop
  | .literal _ => True
  | .filler _ => True
  | .immediate _ lead others =>
    ∀ component ∈ lead :: others, component.range.lo ≤ component.range.hi ∧ component.range.hi ≤ 31
  | .field _ width => 1 ≤ numeralValue width

instance : DecidablePred Legal
  | .literal _ => inferInstanceAs (Decidable True)
  | .filler _ => inferInstanceAs (Decidable True)
  | .immediate _ lead others =>
    inferInstanceAs (Decidable (∀ component ∈ lead :: others, _ ∧ _))
  | .field _ _ => inferInstanceAs (Decidable (_ ≤ _))

theorem legal_iff {t : PatternToken} : t.Legal ↔ ∀ piece ∈ t.pieces, piece.Legal := by
  cases t with
  | literal bits => exact ⟨fun _ => List.forall_mem_map.mpr fun _ _ => trivial, fun _ => trivial⟩
  | filler count =>
    exact ⟨fun _ piece h => List.eq_of_mem_replicate h ▸ trivial, fun _ => trivial⟩
  | immediate signed lead others =>
    rw [pieces, List.forall_mem_cons, List.forall_mem_map]
    exact List.forall_mem_cons
  | field name width => rw [pieces, List.forall_mem_singleton]; rfl

theorem length_cells_pieces (t : PatternToken) : (Pattern.cells t.pieces).length = t.width := by
  cases t with
  | literal bits => rw [pieces, Pattern.cells_fixed, List.length_map, width]
  | filler count => rw [pieces, Pattern.cells_free, List.length_replicate, width]
  | immediate signed lead others =>
    rw [Pattern.length_cells, pieces, width, List.map_cons, List.map_cons, List.map_map]
    rfl
  | field name width => rw [Pattern.length_cells]; rfl

theorem WellFormed.readable {t : PatternToken} (h : t.WellFormed)
    (hwidth : t.width ≤ 32) : t.Readable := by
  cases t with
  | literal _ | filler _ => trivial
  | immediate _ lead others => exact fun component hc => (h component hc).readable
  | field name width => exact ⟨h.2.2, Nat.lt_of_le_of_lt hwidth (by decide)⟩

end PatternToken

namespace Layout

open Pattern

theorem length_cells_tokens (tokens : List PatternToken) :
    (cells (pieces tokens)).length = (tokens.map PatternToken.width).sum := by
  induction tokens with
  | nil => rfl
  | cons t tokens ih =>
    rw [List.map_cons, List.sum_cons, ← ih, ← t.length_cells_pieces, ← List.length_append,
      ← cells_append]
    rfl

theorem exists_realizes_iff (tokens : List PatternToken) :
    (∃ layout, Realizes layout (pieces tokens)) ↔
      (∀ t ∈ tokens, t.Legal) ∧
        ((tokens.map PatternToken.width).sum = 16 ∨ (tokens.map PatternToken.width).sum = 32) := by
  simp only [PatternToken.legal_iff, ← length_cells_tokens]
  constructor
  · rintro ⟨layout, H⟩
    refine ⟨List.forall_mem_flatMap.mp H.legal, ?_⟩
    rw [H.width]
    cases layout.width with
    | compressed => exact .inl rfl
    | standard => exact .inr rfl
  · rintro ⟨hlegal, hwidth | hwidth⟩
    · exact ⟨_, placed_realizes .compressed (List.forall_mem_flatMap.mpr hlegal) hwidth⟩
    · exact ⟨_, placed_realizes .standard (List.forall_mem_flatMap.mpr hlegal) hwidth⟩

theorem resolve_written_eq_ok_iff {items : List (PatternToken × List Char)} (hne : items ≠ [])
    (hitems : Writable items) {gap : List Char} (hgap : IsGap gap) {line : Nat} {layout : Layout} :
    resolve line (String.ofList (gap ++ written items)) = .ok layout ↔
      layout.Realizes (pieces (items.map Prod.fst)) := by
  obtain ⟨ts, hparse, hts, hpieces⟩ := parse_written hne hitems hgap
  rw [resolve_eq_ok_iff, ← hpieces]
  constructor
  · rintro ⟨ts', hparse', _, H⟩
    cases hparse.symm.trans hparse'
    exact H
  · intro H
    refine ⟨ts, hparse, fun t ht => (hts t ht).readable ?_, H⟩
    calc t.width ≤ (ts.map PatternToken.width).sum := List.le_sum_of_mem (List.mem_map_of_mem ht)
      _ = layout.width.bits := by rw [← length_cells_tokens, H.width]
      _ ≤ 32 := bits_le layout.width

/-- A pattern written with any gaps is laid out exactly if its components and fields are legal and its tokens fill 16 or
32 bits. Its layout then says of every bit what the cell of the bit is, and the fixed bits, the slices, the named fields
and the bits that do not matter divide the bits of the instruction among them. -/
theorem resolve_written {items : List (PatternToken × List Char)} (hne : items ≠ [])
    (hitems : Writable items) {gap : List Char} (hgap : IsGap gap) (line : Nat) :
    let tokens := items.map Prod.fst
    let text := String.ofList (gap ++ written items)
    ((∃ layout, resolve line text = .ok layout) ↔
      (∀ t ∈ tokens, t.Legal) ∧
        ((tokens.map PatternToken.width).sum = 16 ∨ (tokens.map PatternToken.width).sum = 32)) ∧
    ∀ layout, resolve line text = .ok layout →
      layout.Realizes (pieces tokens) ∧
      layout.slices.Pairwise (fun a b => a.position < b.position) ∧
      layout.fields.Pairwise (fun a b => a.position < b.position) ∧
      ∀ k, (layout.mask.getLsbD k).toNat + layout.slices.countP (Slice.covers k) +
          layout.fields.countP (NamedField.covers k) +
          (decide (cellAt (pieces tokens) k = some .free)).toNat =
        if k < layout.width.bits then 1 else 0 := by
  intro tokens text
  refine ⟨?_, fun layout hlayout => ?_⟩
  · simp only [text, resolve_written_eq_ok_iff hne hitems hgap]
    exact exists_realizes_iff tokens
  · have H := (resolve_written_eq_ok_iff hne hitems hgap).mp hlayout
    refine ⟨H, ?_, ?_, fun k => ?_⟩
    · rw [H.slices_eq]
      refine (pairwise_slices (pieces tokens)).imp_of_mem fun ha _ hab => ?_
      have := (slice_bounds H.legal ha).1
      omega
    · rw [H.fields]
      refine (pairwise_fields (pieces tokens)).imp_of_mem fun ha _ hab => ?_
      have := (field_bounds H.legal ha).1
      omega
    · rw [← H.width, ← partition, H.slices_eq, H.fields, H.getLsbD_mask, Piece.any_isFree]

/-- A compressed add of a six-bit immediate, with a literal run that is written in two parts. -/
def addImmediateItems : List (PatternToken × List Char) :=
  [(.literal [false], []), (.literal [false, false], [' ']), (.immediate true ⟨"5", none⟩ [], []),
    (.field "rd" "5", ['\t']), (.immediate false ⟨"4", some "0"⟩ [], [' ', ' ']),
    (.literal [false, true], [])]

theorem resolve_written_addImmediate :
    Writable addImmediateItems ∧ IsGap [' '] ∧
    ∃ layout, resolve 1 (String.ofList ([' '] ++ written addImmediateItems)) = .ok layout ∧
      layout.Realizes (pieces (addImmediateItems.map Prod.fst)) := by
  have hitems : Writable addImmediateItems := by decide
  have hgap : IsGap [' '] := by decide
  have h := resolve_written (by decide) hitems hgap 1
  obtain ⟨layout, hlayout⟩ := h.1.mpr ⟨by decide, .inl (by decide)⟩
  exact ⟨hitems, hgap, layout, hlayout, (h.2 layout hlayout).1⟩

end Layout

end IsaForge
