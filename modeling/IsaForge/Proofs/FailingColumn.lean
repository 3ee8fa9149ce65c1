import IsaForge.Proofs.RecordText

/-!
Which column of a malformed line is blamed. A failed reading is followed by `Peg.trace`, which keeps the rules that
failed furthest into the text. Nothing is kept from inside a column (`Peg.trace_sealed`, `Peg.Silent`), so a column is
kept where it begins, exactly if it cannot be read there, and later columns replace earlier ones. What is kept in the
end is the column at which a plain scan of the line gets stuck (`Record.Follows`).
-/

namespace IsaForge

namespace Grammar

/-! ### What is kept of a failed reading -/

namespace Attempts

variable {ρ : Type} {attempts : Attempts ρ} {position : Nat}

/-- A rule that fails further into the text than those before it replaces them. -/
theorem record_of_lt (h : attempts.position < position) (rule : ρ) :
    attempts.record attempts rule position false = ⟨position, [rule], []⟩ := by
  have hne : position ≠ attempts.position := by omega
  rw [record, Nat.sub_self, if_neg (by decide), if_neg (by omega)]
  simp [hne]

/-- A rule that failed further into the text says more than the rule that called it. -/
theorem record_of_gt {before : Attempts ρ} (hbefore : before.position = position)
    (hempty : before.expected.length + before.excluded.length = 0) (h : position < attempts.position) (rule : ρ) :
    before.record attempts rule position false = attempts := by
  have hcount : attempts.countAt position = 0 := if_neg (by omega)
  rw [record, hcount, countAt, if_pos hbefore, hempty, if_neg (by decide), if_pos h]

end Attempts

namespace Peg

variable {ρ α β : Type}

theorem trace_seq_of_none {first : Peg ρ α} {second : Peg ρ β} {mode : RuleKind} {cs : List Char}
    (h : first.parse mode cs = none) (total : Nat) (excluding : Bool) (attempts : Attempts ρ) :
    (seq first second).trace total mode excluding cs attempts = first.trace total mode excluding cs attempts := by
  rw [trace]
  simp only [h]

theorem trace_seq_of_some {first : Peg ρ α} {second : Peg ρ β} {mode : RuleKind} {cs rest : List Char} {x : α}
    (h : first.parse mode cs = some (x, rest)) (total : Nat) (excluding : Bool) (attempts : Attempts ρ) :
    (seq first second).trace total mode excluding cs attempts =
      second.trace total mode excluding (mode.skip rest) (first.trace total mode excluding cs attempts) := by
  rw [trace]
  simp only [h]

theorem traceLoop_eq_self {step : List Char → Option (List Char)} {trace : List Char → Attempts ρ → Attempts ρ}
    (htrace : ∀ cs attempts, trace cs attempts = attempts) (limit : Nat) (cs : List Char) (attempts : Attempts ρ) :
    traceLoop step trace limit cs attempts = attempts := by
  induction limit generalizing cs with
  | zero => rfl
  | succ limit ih =>
    rw [traceLoop, htrace]
    cases step cs with
    | none => rfl
    | some rest => exact ih rest

/-- Whether no rule of a grammar is joined, so that all of it is sealed inside a sealed rule. -/
def staysSealed : {α : Type} → Peg ρ α → Bool
  | _, .start | _, .char _ => true
  | _, .seq first second => first.staysSealed && second.staysSealed
  | _, .choice first second => first.staysSealed && second.staysSealed
  | _, .optional item | _, .many item | _, .absent item | _, .map _ item => item.staysSealed
  | _, .rule _ kind body => kind != .joined && body.staysSealed

/-- Nothing is kept from inside a sealed rule. -/
theorem trace_sealed {g : Peg ρ α} (h : g.staysSealed = true) (total : Nat) (excluding : Bool) (cs : List Char)
    (attempts : Attempts ρ) : g.trace total .sealed excluding cs attempts = attempts := by
  induction g generalizing excluding cs attempts with
  | start | char accepts => rw [trace]
  | seq first second ih₁ ih₂ =>
    obtain ⟨h₁, h₂⟩ := Bool.and_eq_true_iff.mp h
    rw [trace, ih₁ h₁]
    cases first.parse .sealed cs with
    | none => rfl
    | some x => exact ih₂ h₂ _ _ _
  | choice first second ih₁ ih₂ =>
    obtain ⟨h₁, h₂⟩ := Bool.and_eq_true_iff.mp h
    rw [trace, ih₁ h₁]
    cases first.parse .sealed cs with
    | none => exact ih₂ h₂ _ _ _
    | some x => rfl
  | optional item ih | absent item ih | map f item ih =>
    rw [trace]
    exact ih h _ _ _
  | many item ih =>
    rw [trace, ih h]
    cases item.parse .sealed cs with
    | none => rfl
    | some x => exact traceLoop_eq_self (fun _ _ => ih h _ _ _) _ _ _
  | rule name kind body ih =>
    obtain ⟨hkind, hbody⟩ := Bool.and_eq_true_iff.mp h
    have henter : RuleKind.sealed.enter kind = .sealed := by
      cases kind with
      | spaced | sealed => rfl
      | joined => exact absurd hkind (by decide)
    rw [trace, henter]
    exact ih hbody _ _ _

/-- Nothing is kept from a reading that is not excluded, wherever it fails. -/
def Silent (g : Peg ρ α) (mode : RuleKind) : Prop :=
  ∀ total cs attempts, g.trace total mode false cs attempts = attempts

theorem silent_char (accepts : Char → Bool) (mode : RuleKind) : (char accepts : Peg ρ Char).Silent mode := by
  intro total cs attempts
  rw [trace]

theorem Silent.seq {first : Peg ρ α} {second : Peg ρ β} {mode : RuleKind} (h₁ : first.Silent mode)
    (h₂ : second.Silent mode) : (seq first second).Silent mode := by
  intro total cs attempts
  cases h : first.parse mode cs with
  | none => rw [trace_seq_of_none h, h₁]
  | some x => rw [trace_seq_of_some h, h₁, h₂]

theorem Silent.map {item : Peg ρ α} {mode : RuleKind} (h : item.Silent mode) (f : α → β) :
    (map f item).Silent mode := by
  intro total cs attempts
  rw [trace_map, h]

/-- A rule keeps its name where it cannot be read, if nothing is kept from inside it. -/
theorem trace_rule {name : ρ} {kind : RuleKind} {body : Peg ρ α} {mode : RuleKind} (hmode : mode ≠ .sealed)
    (hbody : body.Silent (mode.enter kind)) (total : Nat) (cs : List Char) (attempts : Attempts ρ) :
    (rule name kind body).trace total mode false cs attempts =
      if (body.parse (mode.enter kind) cs).isNone then attempts.record attempts name (total - cs.length) false
      else attempts := by
  rw [trace, hbody]
  cases (body.parse (mode.enter kind) cs).isNone with
  | false => simp
  | true => simp [hmode]

theorem silent_of_staysSealed {body : Peg ρ α} (h : body.staysSealed = true) : body.Silent .sealed :=
  fun total cs attempts => trace_sealed h total false cs attempts

/-- What follows a run of characters. -/
theorem parse_several_char_rest {accepts : Char → Bool} {mode : RuleKind} (hmode : mode ≠ .spaced) (cs : List Char) :
    ((several (char accepts : Peg ρ Char)).parse mode cs).map Prod.snd =
      if cs.head?.any accepts then some (cs.dropWhile accepts) else none := by
  rw [parse_several]
  cases cs with
  | nil => rw [parse_char_nil]; rfl
  | cons c cs =>
    rw [parse_char_cons]
    by_cases hc : accepts c = true
    · simp [hc, skip_of_ne_spaced hmode, parse_many_char accepts hmode]
    · simp [hc]

/-- Nothing is kept from a rule that can always be read. -/
theorem silent_rule {name : ρ} {kind : RuleKind} {body : Peg ρ α} {mode : RuleKind} (hmode : mode ≠ .sealed)
    (hbody : body.Silent (mode.enter kind)) (hparse : ∀ cs, (body.parse (mode.enter kind) cs).isSome = true) :
    (rule name kind body).Silent mode := by
  intro total cs attempts
  have hsome : (body.parse (mode.enter kind) cs).isNone = false := by
    rw [← Option.not_isSome, hparse cs]
    rfl
  rw [trace_rule hmode hbody, hsome]
  rfl

end Peg

theorem columnFrom_eq {cs : List Char} (h : '\n' ∉ cs) (column : Nat) : columnFrom column cs = column + cs.length := by
  induction cs generalizing column with
  | nil => rfl
  | cons c cs ih =>
    obtain ⟨hc, hcs⟩ := not_or.mp (mt List.mem_cons.mpr h)
    rw [columnFrom, ih hcs, List.length_cons]
    · omega
    · rintro rest - rfl
      exact hcs List.mem_cons_self
    · exact Ne.symm hc

end Grammar

namespace Record

open Grammar Peg

/-! ### Scanning a line -/

/-- The characters of the markers in front of an opcode. -/
def isMarker (c : Char) : Bool :=
  c == '+' || c == '!'

/-- What follows a column at the front of the rest of a line, if the column can stand there. The markers may be
missing, each column goes as far as it can, and the action goes to the end of the line. -/
def afterColumn? : Column → List Char → Option (List Char)
  | .kind, cs => some (cs.dropWhile isMarker)
  | .opcode, cs => if cs.head?.any isNameStart then some (cs.dropWhile isOpcodeChar) else none
  | .assembly, cs | .attributes, cs | .operands, cs =>
    if cs.head?.any isBareChar then some (cs.dropWhile isBareChar) else none
  | .bitPattern, cs => if cs.head? = some '"' then (cs.tail.dropWhile (· != '"')).tail? else none
  | .action, cs => if cs.head? = some '"' ∧ cs.tail.getLast? = some '"' then some [] else none

/-- The first of the columns that cannot stand where it is expected, with gaps in between, and the rest of the line
there. -/
def stuckAt? : List Column → List Char → Option (Column × List Char)
  | [], _ => none
  | column :: columns, cs =>
    match afterColumn? column cs with
    | none => some (column, cs)
    | some rest => stuckAt? columns (rest.dropWhile isGap)

/-- The columns of a line in order. -/
def columns : List Column :=
  [.kind, .opcode, .assembly, .attributes, .bitPattern, .operands, .action]

/-- The rule that is reported for a column. -/
def reportedRule : Column → Rule
  | .kind => .record
  | .opcode => .opcode
  | .assembly => .assembly
  | .attributes => .attributes
  | .bitPattern => .bitPattern
  | .operands => .operands
  | .action => .action

theorem afterColumn?_suffix {column : Column} {cs rest : List Char} (h : afterColumn? column cs = some rest) :
    rest <:+ cs := by
  cases column with
  | kind =>
    cases h
    exact List.dropWhile_suffix _
  | opcode | assembly | attributes | operands =>
    rw [afterColumn?] at h
    split at h
    · cases h
      exact List.dropWhile_suffix _
    · cases h
  | bitPattern =>
    rw [afterColumn?] at h
    split at h
    · have hinner : cs.tail.dropWhile (· != '"') <:+ cs := (List.dropWhile_suffix _).trans (List.tail_suffix cs)
      cases hquote : cs.tail.dropWhile (· != '"') with
      | nil =>
        rw [hquote] at h
        cases h
      | cons quote behind =>
        rw [hquote] at h hinner
        cases h
        exact (List.suffix_cons quote rest).trans hinner
    · cases h
  | action =>
    rw [afterColumn?] at h
    split at h
    · cases h
      exact List.nil_suffix
    · cases h

theorem stuckAt?_suffix {columns : List Column} {cs : List Char} {column : Column} {place : List Char}
    (h : stuckAt? columns cs = some (column, place)) : place <:+ cs := by
  induction columns generalizing cs with
  | nil => cases h
  | cons first columns ih =>
    rw [stuckAt?] at h
    cases hafter : afterColumn? first cs with
    | none =>
      rw [hafter] at h
      cases h
      exact List.suffix_refl _
    | some rest =>
      rw [hafter] at h
      exact (ih h).trans ((List.dropWhile_suffix _).trans (afterColumn?_suffix hafter))

/-! ### Reading a column -/

/-- The grammar reads the column as it is scanned, and where it cannot, it reports the column there. -/
structure Reads {α : Type} (g : Peg Rule α) (column : Column) (cs : List Char) : Prop where
  rest : (g.parse .spaced cs).map Prod.snd = afterColumn? column cs
  trace (total : Nat) (attempts : Attempts Rule) : g.trace total .spaced false cs attempts =
    if (g.parse .spaced cs).isNone then attempts.record attempts (reportedRule column) (total - cs.length) false
    else attempts

theorem reads_rule {α : Type} {name : Rule} {column : Column} {kind : RuleKind} {body : Peg Rule α} {cs : List Char}
    (hname : name = reportedRule column) (hbody : body.Silent (RuleKind.spaced.enter kind))
    (hrest : (body.parse (RuleKind.spaced.enter kind) cs).map Prod.snd = afterColumn? column cs) :
    Reads (.rule name kind body) column cs := by
  subst hname
  constructor
  · rw [parse_rule, hrest]
  · intro total attempts
    rw [parse_rule, trace_rule (by decide) hbody]

theorem reads_opcodeName (cs : List Char) : Reads opcodeName .opcode cs := by
  apply reads_rule
  · rfl
  · exact silent_of_staysSealed rfl
  · rw [parse_map, parse_seq, afterColumn?]
    cases cs with
    | nil =>
      rw [parse_char_nil]
      rfl
    | cons c cs =>
      rw [parse_char_cons]
      by_cases hc : isNameStart c = true
      · simp only [hc, if_true, Option.bind_some, List.head?_cons, Option.any_some,
          List.dropWhile_cons_of_pos (isOpcodeChar_of_isNameStart hc)]
        rw [parse_many_char _ (by decide)]
        rfl
      · simp [hc]

theorem reads_bareColumn (column : Column) {cs : List Char}
    (hcolumn : afterColumn? column cs = if cs.head?.any isBareChar then some (cs.dropWhile isBareChar) else none) :
    Reads (bareColumn (reportedRule column)) column cs := by
  apply reads_rule
  · rfl
  · exact silent_of_staysSealed rfl
  · rw [parse_map, Option.map_map, hcolumn]
    exact parse_several_char_rest (by decide) cs

theorem silent_patternText : patternText.Silent .joined := by
  apply silent_rule (by decide)
  · exact silent_of_staysSealed rfl
  · intro cs
    rw [parse_map, parse_many_char _ (enter_sealed_ne_spaced _)]
    rfl

theorem silent_actionText : actionText.Silent .joined := by
  apply silent_rule (by decide)
  · exact silent_of_staysSealed rfl
  · intro cs
    rw [parse_map, parse]
    split <;> rfl

theorem silent_quoted {text : Peg Rule String} (htext : text.Silent .joined) :
    (before (exactly '"') (after text (exactly '"'))).Silent .joined :=
  ((silent_char _ _).seq ((htext.seq (silent_char _ _)).map _)).map _

theorem parse_exactly (c : Char) (mode : RuleKind) (cs : List Char) :
    (exactly c : Peg Rule Char).parse mode cs = if cs.head? = some c then some (c, cs.tail) else none := by
  cases cs with
  | nil => rw [exactly, parse_char_nil]; rfl
  | cons d cs =>
    rw [exactly, parse_char_cons]
    by_cases hd : d = c
    · simp [hd]
    · simp [hd]

/-- A quoted column is read if its text is read up to a quotation mark. -/
theorem parse_quoted (text : Peg Rule String) (cs : List Char) :
    ((before (exactly '"') (after text (exactly '"'))).parse .joined cs).map Prod.snd =
      if cs.head? = some '"' then
        (text.parse .joined cs.tail).bind fun x => if x.2.head? = some '"' then some x.2.tail else none
      else none := by
  rw [parse_before, parse_exactly]
  split
  · rw [Option.bind_some, parse_after]
    show Option.map _ ((text.parse .joined cs.tail).bind _) = _
    cases text.parse .joined cs.tail with
    | none => rfl
    | some x =>
      rw [Option.bind_some, Option.bind_some, parse_exactly]
      show Option.map _ (Option.map _ (if x.2.head? = some '"' then _ else _)) = _
      split <;> rfl
  · rfl

theorem reads_bitPattern (cs : List Char) : Reads (quotedColumn .bitPattern patternText) .bitPattern cs := by
  apply reads_rule
  · rfl
  · exact silent_quoted silent_patternText
  · have hpattern (inner : List Char) :
        (patternText.parse .joined inner).map Prod.snd = some (inner.dropWhile (· != '"')) := by
      rw [patternText, parse_rule, parse_map, parse_many_char _ (enter_sealed_ne_spaced _)]
      rfl
    obtain ⟨x, hx, hrest⟩ := Option.map_eq_some_iff.mp (hpattern cs.tail)
    have hstop := stops_dropWhile (· != '"') cs.tail
    refine (parse_quoted _ _).trans ?_
    rw [afterColumn?, hx, Option.bind_some, hrest]
    congr 1
    cases hinner : cs.tail.dropWhile (· != '"') with
    | nil => rfl
    | cons c behind =>
      rw [hinner] at hstop
      have hc : c = '"' := by simpa using hstop c rfl
      rw [hc]
      rfl

theorem parse_actionChar_of_closing {c : Char} {cs : List Char} (h : closing.parse .sealed (c :: cs) = none) :
    actionChar.parse .sealed (c :: cs) = some (c, cs) := by
  rw [actionChar, parse_before, parse, h]
  show (char fun _ => true : Peg Rule Char).parse .sealed (c :: cs) = _
  rw [parse_char_cons, if_pos rfl]

/-- What ends the line ends no action, if it is neither a gap nor a quotation mark. -/
theorem parse_closing_open {c : Char} {cs : List Char} (hgap : Stops isGap (c :: cs).reverse)
    (hopen : (c :: cs).getLast? ≠ some '"') : closing.parse .sealed (c :: cs) = none := by
  by_cases hc : c = '"'
  · subst hc
    rw [parse_closing, if_neg]
    intro hnil
    have hall := List.dropWhile_eq_nil_iff.mp hnil
    cases hlast : cs.getLast? with
    | none =>
      rw [List.getLast?_eq_none_iff.mp hlast] at hopen
      exact hopen rfl
    | some last =>
      have hmem := List.mem_of_getLast? hlast
      have hgap := hgap last (by rw [List.head?_reverse, List.getLast?_cons, hlast]; rfl)
      rw [hall last hmem] at hgap
      cases hgap
  · rw [closing, parse_before, parse_exactly, if_neg (by simpa using hc)]
    rfl

theorem stops_reverse_of_suffix {accepts : Char → Bool} {cs rest : List Char} (h : Stops accepts cs.reverse)
    (hsuffix : rest <:+ cs) : Stops accepts rest.reverse := by
  obtain ⟨front, rfl⟩ := hsuffix
  intro c hc
  apply h
  rw [List.reverse_append, List.head?_append, Option.mem_def.mp hc]
  rfl

/-- An action that is not closed is read to the end of the line. -/
theorem parse_actionText_open {cs : List Char} (hgap : Stops isGap cs.reverse) (hopen : cs.getLast? ≠ some '"') :
    ∃ text, actionText.parse .joined cs = some (text, []) := by
  have hsteps : Steps (fun cs => actionChar.parse .sealed (RuleKind.sealed.skip cs)) cs cs [] := by
    induction cs with
    | nil => exact .stop rfl
    | cons c cs ih =>
      refine .more (parse_actionChar_of_closing (parse_closing_open hgap hopen)) (ih ?_ ?_)
      · exact stops_reverse_of_suffix hgap (List.suffix_cons c cs)
      · intro hlast
        rw [List.getLast?_cons, hlast] at hopen
        exact hopen rfl
  refine ⟨String.ofList cs, ?_⟩
  rw [actionText, parse_rule, parse_map]
  exact congrArg _ (parse_many_steps rfl rfl hsteps)

theorem reads_action {cs : List Char} (hgap : Stops isGap cs.reverse) :
    Reads (quotedColumn .action actionText) .action cs := by
  apply reads_rule
  · rfl
  · exact silent_quoted silent_actionText
  · refine (parse_quoted _ _).trans ?_
    rw [afterColumn?]
    by_cases hquote : cs.head? = some '"'
    · by_cases hlast : cs.tail.getLast? = some '"'
      · obtain ⟨inner, hinner⟩ := List.getLast?_eq_some_iff.mp hlast
        have haction := parse_actionText (String.ofList inner)
        rw [String.toList_ofList] at haction
        rw [if_pos hquote, if_pos ⟨hquote, hlast⟩, hinner, haction]
        rfl
      · obtain ⟨text, htext⟩ := parse_actionText_open (stops_reverse_of_suffix hgap (List.tail_suffix cs)) hlast
        rw [if_pos hquote, if_neg fun h => hlast h.2, htext]
        rfl
    · rw [if_neg hquote, if_neg fun h => hquote h.1]

/-! ### Reading the columns in a row -/

/-- The grammar reads the columns in a row as they are scanned, and where that gets stuck, it reports the column
there. The text is the end of one of `total` characters. -/
structure Follows {α : Type} (total : Nat) (g : Peg Rule α) (columns : List Column) (cs : List Char) : Prop where
  accepted : stuckAt? columns cs = none → (g.parse .spaced cs).isSome = true
  refused {column : Column} {place : List Char} : stuckAt? columns cs = some (column, place) →
    ∀ attempts : Attempts Rule, attempts.position < total - place.length →
      g.trace total .spaced false cs attempts = ⟨total - place.length, [reportedRule column], []⟩

theorem follows_finish (total : Nat) : Follows total Grammar.finish [] [] := by
  constructor
  · intro _
    rw [Grammar.finish, parse_finish, if_pos rfl]
    rfl
  · intro column place h
    cases h

theorem Reads.follows {α β : Type} {total : Nat} {first : Peg Rule α} {second : Peg Rule β} {column : Column}
    {columns : List Column} {cs : List Char} (hfirst : Reads first column cs)
    (hsecond : ∀ rest, afterColumn? column cs = some rest → Follows total second columns (rest.dropWhile isGap)) :
    Follows total (.seq first second) (column :: columns) cs := by
  have hrest := hfirst.rest
  cases hparse : first.parse .spaced cs with
  | none =>
    rw [hparse] at hrest
    have hafter : afterColumn? column cs = none := hrest.symm
    constructor
    · rw [stuckAt?, hafter]
      exact nofun
    · rw [stuckAt?, hafter]
      rintro column place ⟨⟩ attempts hlt
      -- the column fails behind all that is kept so far and replaces it
      rw [trace_seq_of_none hparse, hfirst.trace, hparse]
      exact Attempts.record_of_lt hlt _
  | some x =>
    rw [hparse] at hrest
    have hafter : afterColumn? column cs = some x.2 := hrest.symm
    have H := hsecond x.2 hafter
    constructor
    · rw [stuckAt?, hafter]
      intro hstuck
      rw [parse_seq, hparse, Option.bind_some, Option.isSome_map]
      exact H.accepted hstuck
    · rw [stuckAt?, hafter]
      intro other place hstuck attempts hlt
      rw [trace_seq_of_some hparse, hfirst.trace, hparse]
      exact H.refused hstuck attempts hlt

theorem Reads.follows_of_forall {α β : Type} {total : Nat} {first : Peg Rule α} {second : Peg Rule β} {column : Column}
    {columns : List Column} {cs : List Char} (hfirst : Reads first column cs) (hgap : Stops isGap cs.reverse)
    (hsecond : ∀ rest, Stops isGap rest.reverse → Follows total second columns rest) :
    Follows total (.seq first second) (column :: columns) cs := by
  apply hfirst.follows
  intro rest hrest
  apply hsecond
  exact stops_reverse_of_suffix hgap ((List.dropWhile_suffix _).trans (afterColumn?_suffix hrest))

/-- The part of a record that begins with the opcode. -/
def fromOpcode : Peg Rule (String × String × String × String × String × String × Unit) :=
  .seq opcodeName (.seq (bareColumn .assembly) (.seq (bareColumn .attributes)
    (.seq (quotedColumn .bitPattern patternText) (.seq (bareColumn .operands)
      (.seq (quotedColumn .action actionText) Grammar.finish)))))

theorem follows_fromOpcode (total : Nat) {cs : List Char} (hgap : Stops isGap cs.reverse) :
    Follows total fromOpcode columns.tail cs := by
  apply (reads_opcodeName cs).follows_of_forall hgap
  intro cs hgap
  apply (reads_bareColumn .assembly rfl).follows_of_forall hgap
  intro cs hgap
  apply (reads_bareColumn .attributes rfl).follows_of_forall hgap
  intro cs hgap
  apply (reads_bitPattern cs).follows_of_forall hgap
  intro cs hgap
  apply (reads_bareColumn .operands rfl).follows_of_forall hgap
  intro cs hgap
  apply (reads_action hgap).follows
  intro rest hrest
  -- nothing is left behind an action
  rw [afterColumn?] at hrest
  split at hrest
  · cases hrest
    exact follows_finish total
  · cases hrest

/-! ### Reading a whole line -/

theorem parse_kind_rest (cs : List Char) :
    (kind.parse .spaced cs).map Prod.snd = if cs.head?.any isMarker then some (cs.dropWhile isMarker) else none := by
  rw [kind, parse_rule, parse_map, Option.map_map]
  exact parse_several_char_rest (by decide) cs

theorem parse_optional_kind (cs : List Char) :
    ∃ provenance?, (optional kind).parse .spaced cs = some (provenance?, cs.dropWhile isMarker) := by
  have hrest := parse_kind_rest cs
  rw [parse_optional]
  cases hkind : kind.parse .spaced cs with
  | some x =>
    rw [hkind] at hrest
    split at hrest
    · refine ⟨some x.1, ?_⟩
      rw [← Option.some.inj hrest]
      rfl
    · cases hrest
  | none =>
    rw [hkind] at hrest
    split at hrest
    · cases hrest
    · next hmarker =>
      refine ⟨none, ?_⟩
      cases cs with
      | nil => rfl
      | cons c cs => rw [List.dropWhile_cons_of_neg (by simpa using hmarker)]; rfl

/-- Missing markers are kept, at the front of the line. -/
theorem trace_optional_kind (cs : List Char) :
    (optional kind).trace cs.length .spaced false cs {} =
      if cs.head?.any isMarker then {} else ⟨0, [.kind], []⟩ := by
  have hrest := parse_kind_rest cs
  rw [kind, parse_rule] at hrest
  rw [trace, kind, trace_rule (by decide) (silent_of_staysSealed rfl), Nat.sub_self]
  split at hrest
  · next hmarker =>
    obtain ⟨x, hx, -⟩ := Option.map_eq_some_iff.mp hrest
    rw [hx, if_pos hmarker]
    rfl
  · next hmarker =>
    rw [Option.map_eq_none_iff.mp hrest, if_neg hmarker]
    rfl

section

variable {cs : List Char} (hfront : Stops isGap cs)
include hfront

theorem isSome_parse_row :
    (row.parse .spaced cs).isSome = (fromOpcode.parse .spaced ((cs.dropWhile isMarker).dropWhile isGap)).isSome := by
  obtain ⟨provenance?, hkind⟩ := parse_optional_kind cs
  rw [row, parse_rule, parse_map, Option.isSome_map, parse_seq, parse_start, Option.bind_some,
    Option.isSome_map]
  show ((seq (optional kind) fromOpcode).parse .spaced (RuleKind.spaced.skip cs)).isSome = _
  rw [skip_of_stops hfront, parse_seq, hkind, Option.bind_some, Option.isSome_map]
  rfl

/-- What is kept of a line that cannot be read is kept from the opcode on, or else it is the record as a whole. -/
theorem attempts_row (hread : row.read cs = none) :
    row.attempts cs = Attempts.record {}
      (fromOpcode.trace cs.length .spaced false ((cs.dropWhile isMarker).dropWhile isGap)
        (if cs.head?.any isMarker then {} else ⟨0, [.kind], []⟩)) .record 0 false := by
  obtain ⟨provenance?, hkind⟩ := parse_optional_kind cs
  have hstart : (start : Peg Rule Unit).parse .spaced cs = some ((), cs) := parse_start .spaced cs
  have hparse : row.parse .spaced cs = none := Option.map_eq_none_iff.mp hread
  rw [row, parse_rule] at hparse
  rw [attempts, row, trace, hparse, trace_map]
  show Attempts.record {} ((seq start (seq (optional kind) fromOpcode)).trace cs.length .spaced false cs {}) .record
    (cs.length - cs.length) false = _
  rw [trace_seq_of_some hstart, skip_of_stops hfront, trace_seq_of_some hkind, Nat.sub_self, trace, trace_optional_kind]
  rfl

/-- Of a line that begins neither with a marker nor with a name, the record is kept. -/
theorem attempts_of_stops (hread : row.read cs = none) (hstops : Stops (fun c => isMarker c || isNameStart c) cs) :
    row.attempts cs = ⟨0, [.record], []⟩ := by
  obtain ⟨hmarker, hname⟩ := Stops.of_or hstops
  have hdrop : (cs.dropWhile isMarker).dropWhile isGap = cs := by
    rw [show cs.dropWhile isMarker = cs from @dropWhile_run _ isMarker [] cs nofun hmarker]
    exact skip_of_stops hfront
  have hany : ¬ cs.head?.any isMarker = true := by
    cases cs with
    | nil => exact Bool.false_ne_true
    | cons c cs => simpa using hmarker c rfl
  have hopcode : opcodeName.parse .spaced cs = none := by
    rw [opcodeName, parse_rule, parse_map, parse_seq, parse_char_none hname]
    rfl
  -- markers and opcode both fail at the front, and for two rules there the record as a whole is kept
  rw [attempts_row hfront hread, hdrop, if_neg hany, fromOpcode, trace_seq_of_none hopcode, (reads_opcodeName cs).trace,
    hopcode, Nat.sub_self]
  rfl

/-- Of any other line, the column is kept that the scan gets stuck at. -/
theorem attempts_of_stuckAt? (hread : row.read cs = none) {column : Column} {place : List Char}
    (hback : Stops isGap cs.reverse) (hstuck : stuckAt? columns cs = some (column, place))
    (hplace : place.length < cs.length) :
    row.attempts cs = ⟨cs.length - place.length, [reportedRule column], []⟩ := by
  have hsuffix : (cs.dropWhile isMarker).dropWhile isGap <:+ cs :=
    (List.dropWhile_suffix _).trans (List.dropWhile_suffix _)
  have H := follows_fromOpcode cs.length (stops_reverse_of_suffix hback hsuffix)
  rw [attempts_row hfront hread, H.refused hstuck]
  · apply Attempts.record_of_gt rfl rfl
    show 0 < cs.length - place.length
    omega
  · split <;> exact Nat.sub_pos_of_lt hplace

end

theorem stuckAt?_mem {columns : List Column} {cs : List Char} {column : Column} {place : List Char}
    (h : stuckAt? columns cs = some (column, place)) : column ∈ columns := by
  induction columns generalizing cs with
  | nil => cases h
  | cons first columns ih =>
    rw [stuckAt?] at h
    split at h
    · cases h
      exact List.mem_cons_self
    · exact List.mem_cons_of_mem _ (ih h)

/-- A line that begins with a marker or a name gets stuck behind its front. -/
theorem length_place_lt {cs place : List Char} {column : Column}
    (hstart : ¬ Stops (fun c => isMarker c || isNameStart c) cs) (h : stuckAt? columns cs = some (column, place)) :
    place.length < cs.length := by
  cases cs with
  | nil => exact absurd .nil hstart
  | cons c cs =>
    have htail {rest : List Char} (hrest : rest <:+ cs) (hplace : place <:+ rest) : place.length < (c :: cs).length :=
      Nat.lt_succ_of_le (hplace.trans hrest).length_le
    rw [columns, stuckAt?] at h
    by_cases hmarker : isMarker c = true
    · rw [afterColumn?, List.dropWhile_cons_of_pos hmarker] at h
      exact htail ((List.dropWhile_suffix _).trans (List.dropWhile_suffix _)) (stuckAt?_suffix h)
    · have hname : isNameStart c = true := by
        by_contra hname
        apply hstart
        apply Stops.cons
        exact Bool.or_eq_false_iff.mpr ⟨Bool.eq_false_iff.mpr hmarker, Bool.eq_false_iff.mpr hname⟩
      have hopcode : afterColumn? .opcode (c :: cs) = some (cs.dropWhile isOpcodeChar) := by
        rw [afterColumn?, if_pos (show (c :: cs).head?.any isNameStart = true from hname),
          List.dropWhile_cons_of_pos (isOpcodeChar_of_isNameStart hname)]
      have hgap : ¬ isGap c = true := Bool.eq_false_iff.mp (isGap_of_isNameStart hname)
      rw [afterColumn?, List.dropWhile_cons_of_neg hmarker] at h
      simp only [List.dropWhile_cons_of_neg hgap] at h
      rw [stuckAt?, hopcode] at h
      exact htail ((List.dropWhile_suffix _).trans (List.dropWhile_suffix _)) (stuckAt?_suffix h)

theorem filter_reportedRule (column : Column) :
    Rule.all.filter [reportedRule column].contains = [reportedRule column] := by
  cases column <;> decide

theorem failingColumn_reportedRule (column : Column) (position : Nat) :
    failingColumn ⟨position, [reportedRule column], []⟩ = column := by
  cases column <;> rfl

theorem message_unreadable (position : Nat) (rule : Rule) :
    (RecordFault.unreadable ⟨position, [rule], []⟩).message =
      "at column " ++ Text.decimal position ++ ": expected " ++ rule.label := by
  show "at column " ++ Text.decimal position ++ ": " ++ ("expected " ++ rule.label) = _
  rw [show (": expected " : String) = ": " ++ "expected " from rfl]
  simp only [String.append_assoc]

/-- The report of a line of which the rule of a column is kept. -/
theorem parseLine_of_attempts {text : String} (hline : '\n' ∉ text.toList)
    (hbusy : isIdle (Text.trimChars text.toList) = false) (hread : row.read (Text.trimChars text.toList) = none)
    {before place : List Char} (hplace : Text.trimChars text.toList = before ++ place) {column : Column}
    (hattempts : row.attempts (Text.trimChars text.toList) = ⟨before.length, [reportedRule column], []⟩) (line : Nat) :
    parseLine line text =
      .error (.malformedRecord line column (.unreadable ⟨before.length + 1, [reportedRule column], []⟩)) := by
  have hbefore : '\n' ∉ before := by
    intro hmem
    obtain ⟨front, back, -, -, htext⟩ := Text.exists_around text.toList
    apply hline
    rw [htext, hplace]
    simp [hmem]
  have hfailure : Failure.ofAttempts (Text.trimChars text.toList) ⟨before.length, [reportedRule column], []⟩ =
      ⟨before.length + 1, [reportedRule column], []⟩ := by
    rw [Failure.ofAttempts, filter_reportedRule, hplace, List.take_left, columnFrom_eq hbefore, Nat.add_comm]
    simp
  have hreport : readAll row (Text.trimChars text.toList) =
      .error ⟨before.length + 1, [reportedRule column], []⟩ := by
    rw [readAll, hread, hattempts, hfailure]
  have hrow : parseRow line (Text.trimChars text.toList) =
      .error (.malformedRecord line column (.unreadable ⟨before.length + 1, [reportedRule column], []⟩)) := by
    unfold parseRow
    simp only [hreport, failingColumn_reportedRule]
  rw [parseLine_eq, hbusy, hrow]
  rfl

/-- A line that holds a record which cannot be read is reported as malformed, with the column that it gets stuck at.
That is the markers, at the front of the line, exactly if the line begins neither with a marker nor with a name.
Otherwise it is the first of the other columns that cannot stand where it is expected, when the columns before it are
read as far as they go and the gaps behind them are skipped. The report counts the characters before that place. -/
theorem parseLine_unreadable {text : String} (hline : '\n' ∉ text.toList)
    (hbusy : isIdle (Text.trimChars text.toList) = false) (hread : row.read (Text.trimChars text.toList) = none)
    (line : Nat) :
    ∃ column before place,
      parseLine line text =
        .error (.malformedRecord line column (.unreadable ⟨before.length + 1, [reportedRule column], []⟩)) ∧
      (RecordFault.unreadable ⟨before.length + 1, [reportedRule column], []⟩).message =
        "at column " ++ Text.decimal (before.length + 1) ++ ": expected " ++ (reportedRule column).label ∧
      Text.trimChars text.toList = before ++ place ∧
      (column = .kind ↔ Stops (fun c => isMarker c || isNameStart c) (Text.trimChars text.toList)) ∧
      (column = .kind → before = []) ∧
      (column ≠ .kind → stuckAt? columns (Text.trimChars text.toList) = some (column, place)) := by
  have hblank {c : Char} (h : Text.isBlank c = false) : isGap c = false := by
    cases hgap : isGap c with
    | false => rfl
    | true => rcases isGap_cases hgap with rfl | rfl <;> cases h
  obtain ⟨hfront, hback⟩ := Text.trimmed_trimChars text.toList
  have hfront : Stops isGap (Text.trimChars text.toList) := fun c hc => hblank (hfront c hc)
  have hback : Stops isGap (Text.trimChars text.toList).reverse := fun c hc => hblank (hback c hc)
  by_cases hstops : Stops (fun c => isMarker c || isNameStart c) (Text.trimChars text.toList)
  · have hattempts : row.attempts (Text.trimChars text.toList) = ⟨([] : List Char).length, [reportedRule .kind], []⟩ :=
      attempts_of_stops hfront hread hstops
    exact ⟨.kind, [], _, parseLine_of_attempts hline hbusy hread rfl hattempts line, message_unreadable _ _, rfl,
      iff_of_true rfl hstops, fun _ => rfl, absurd rfl⟩
  · cases hstuck : stuckAt? columns (Text.trimChars text.toList) with
    | none =>
      -- the scan gets through, so the line could be read
      have hsuffix : ((Text.trimChars text.toList).dropWhile isMarker).dropWhile isGap <:+ Text.trimChars text.toList :=
        (List.dropWhile_suffix _).trans (List.dropWhile_suffix _)
      have hsome := (follows_fromOpcode 0 (stops_reverse_of_suffix hback hsuffix)).accepted hstuck
      rw [← isSome_parse_row hfront, Option.map_eq_none_iff.mp hread] at hsome
      cases hsome
    | some found =>
      obtain ⟨column, place⟩ := found
      obtain ⟨before, hplace⟩ := stuckAt?_suffix hstuck
      have hattempts := attempts_of_stuckAt? hfront hread hback hstuck (length_place_lt hstops hstuck)
      rw [← hplace, List.length_append, Nat.add_sub_cancel, hplace] at hattempts
      have hkind : column ≠ .kind := by
        rintro rfl
        have hmem : Column.kind ∈ columns.tail := stuckAt?_mem hstuck
        exact absurd hmem (by decide)
      exact ⟨column, before, place, parseLine_of_attempts hline hbusy hread hplace.symm hattempts line,
        message_unreadable _ _, hplace.symm, iff_of_false hkind hstops, fun h => absurd h hkind, fun _ => rfl⟩

/-- A line whose bit pattern is not closed. -/
def openPatternLine : String :=
  "  +add\tx,y  -  \"01 rd[5]"

theorem parseLine_unreadable_openPatternLine :
    '\n' ∉ openPatternLine.toList ∧ isIdle (Text.trimChars openPatternLine.toList) = false ∧
      row.read (Text.trimChars openPatternLine.toList) = none ∧
      parseLine 3 openPatternLine = .error (.malformedRecord 3 .bitPattern (.unreadable ⟨14, [.bitPattern], []⟩)) := by
  have hline : '\n' ∉ openPatternLine.toList := by decide
  have hbusy : isIdle (Text.trimChars openPatternLine.toList) = false := by decide +kernel
  have hread : row.read (Text.trimChars openPatternLine.toList) = none :=
    Option.isNone_iff_eq_none.mp (by decide +kernel)
  have hplace : stuckAt? columns (Text.trimChars openPatternLine.toList) = some (.bitPattern, "\"01 rd[5]".toList) := by
    decide +kernel
  obtain ⟨column, before, place, hparse, -, happend, hkind, -, hstuck⟩ := parseLine_unreadable hline hbusy hread 3
  have hmarker : column ≠ .kind := by
    intro h
    exact absurd (hkind.mp h '+' (by decide +kernel)) (by decide)
  cases hplace.symm.trans (hstuck hmarker)
  have hlength : before.length = 13 := by
    have htotal := congrArg List.length happend
    rw [List.length_append, show (Text.trimChars openPatternLine.toList).length = 22 by decide +kernel,
      show ("\"01 rd[5]".toList).length = 9 by decide] at htotal
    omega
  rw [hlength] at hparse
  exact ⟨hline, hbusy, hread, hparse⟩

end Record

end IsaForge
