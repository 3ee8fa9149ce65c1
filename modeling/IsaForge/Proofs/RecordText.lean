import IsaForge.Proofs.Spelling
import IsaForge.Record

/-!
Records as text. `LineLayout.write` puts the columns of a record on a line, with any markers, gaps and blanks that a
layout gives. A record whose columns can stand on a line is read back from each of its lines, and every record that is
read has such columns.

An action may hold quotation marks: it ends at the last one of the line, as after any other something that is no gap
still follows (`parse_actionText`).
-/

namespace IsaForge

open Grammar Peg

/-! ### Blanks at the ends -/

namespace Text

/-- A text with no blank at either end. -/
def Trimmed (cs : List Char) : Prop :=
  Stops isBlank cs ∧ Stops isBlank cs.reverse

theorem trimmed_trimChars (cs : List Char) : Trimmed (trimChars cs) := by
  constructor
  · -- what is kept begins as the text without the blanks in front of it
    obtain ⟨back, hback⟩ : trimRight (cs.dropWhile isBlank) <+: cs.dropWhile isBlank :=
      List.rdropWhile_prefix _ _
    intro c hc
    refine stops_dropWhile isBlank cs c ?_
    rw [trimChars, Option.mem_def] at hc
    rw [← hback, List.head?_append, hc]
    rfl
  · rw [trimChars, trimRight, List.reverse_reverse]
    exact stops_dropWhile _ _

theorem trimChars_around {front cs back : List Char} (hfront : ∀ c ∈ front, isBlank c = true)
    (hcs : Trimmed cs) (hback : ∀ c ∈ back, isBlank c = true) :
    trimChars (front ++ cs ++ back) = cs := by
  have hleft : (front ++ cs ++ back).dropWhile isBlank = (cs ++ back).dropWhile isBlank := by
    rw [List.append_assoc, List.dropWhile_append_of_pos hfront]
  have hright (ds : List Char) : trimRight (ds ++ back) = trimRight ds := by
    rw [trimRight, trimRight, List.reverse_append,
      List.dropWhile_append_of_pos fun c hc => hback c (List.mem_reverse.mp hc)]
  have hkept : trimRight cs = cs := by
    have hrun : ([] ++ cs.reverse).dropWhile isBlank = cs.reverse := dropWhile_run nofun hcs.2
    rw [List.nil_append] at hrun
    rw [trimRight, hrun, List.reverse_reverse]
  rw [trimChars, hleft]
  cases cs with
  | nil =>
    rw [List.nil_append, ← List.append_nil back, dropWhile_run hback .nil]
    rfl
  | cons c cs =>
    rw [List.cons_append, List.dropWhile_cons_of_neg (by rw [hcs.1 c rfl]; decide),
      ← List.cons_append, hright, hkept]

theorem trimChars_of_trimmed {cs : List Char} (hcs : Trimmed cs) : trimChars cs = cs := by
  have h : trimChars ([] ++ cs ++ []) = cs := trimChars_around nofun hcs nofun
  rwa [List.nil_append, List.append_nil] at h

theorem exists_around (cs : List Char) :
    ∃ front back, (∀ c ∈ front, isBlank c = true) ∧ (∀ c ∈ back, isBlank c = true) ∧
      cs = front ++ trimChars cs ++ back := by
  refine ⟨cs.takeWhile isBlank, (cs.dropWhile isBlank).rtakeWhile isBlank,
    fun c hc => List.mem_takeWhile_imp hc, fun c hc => List.mem_rtakeWhile_imp hc, ?_⟩
  have hright : trimChars cs ++ (cs.dropWhile isBlank).rtakeWhile isBlank = cs.dropWhile isBlank :=
    List.rdropWhile_append_rtakeWhile
  rw [List.append_assoc, hright, List.takeWhile_append_dropWhile]

theorem trimChars_append {cs back : List Char} (hback : ∀ c ∈ back, isBlank c = true) :
    trimChars (cs ++ back) = trimChars cs := by
  obtain ⟨front, rest, hfront, hrest, hcs⟩ := exists_around cs
  conv_lhs => rw [hcs, List.append_assoc]
  exact trimChars_around hfront (trimmed_trimChars cs) (List.forall_mem_append.mpr ⟨hrest, hback⟩)

theorem trim_trim (s : String) : trim (trim s) = trim s := by
  rw [trim, trim, String.toList_ofList, trimChars_of_trimmed (trimmed_trimChars _)]

theorem mem_of_mem_trim {s : String} {c : Char} (h : c ∈ (trim s).toList) : c ∈ s.toList := by
  obtain ⟨front, back, _, _, hs⟩ := exists_around s.toList
  rw [trim, String.toList_ofList] at h
  rw [hs]
  exact List.mem_append_left _ (List.mem_append_right _ h)

end Text

namespace Record

/-! ### Columns -/

/-- The characters of opcodes. -/
def isOpcodeChar (c : Char) : Bool :=
  isNamePart c || c == '.'

/-- A name that may hold dots. -/
def IsOpcode (opcode : String) : Prop :=
  (∃ c ∈ opcode.toList.head?, isNameStart c = true) ∧ ∀ c ∈ opcode.toList, isOpcodeChar c = true

instance (opcode : String) : Decidable (IsOpcode opcode) :=
  @instDecidableAnd _ _ (decidableExistsNameStart _) (List.decidableBAll _ _)

/-- The characters of a column that is not quoted. -/
def isBareChar (c : Char) : Bool :=
  !(isGap c || c == '"')

/-- A text that can stand in a column that is not quoted. -/
def IsBare (text : String) : Prop :=
  text.toList ≠ [] ∧ ∀ c ∈ text.toList, isBareChar c = true

instance (text : String) : Decidable (IsBare text) :=
  @instDecidableAnd _ _ inferInstance (List.decidableBAll _ _)

/-- One of the two stop marks, or a name. -/
def IsAttribute (token : String) : Prop :=
  token = "<" ∨ token = ">" ∨ IsName token

instance (token : String) : Decidable (IsAttribute token) :=
  inferInstanceAs (Decidable (_ ∨ _ ∨ _))

/-- A record whose columns can stand on a line. -/
structure WellFormed (record : Record) : Prop where
  opcode : IsOpcode record.opcode
  assembly : IsBare record.assembly
  attributes : ∀ token ∈ record.attributes, IsAttribute token
  bitPattern : '"' ∉ record.bitPattern.toList
  trimmedPattern : Text.trim record.bitPattern = record.bitPattern
  operands : IsBare record.operands
  trimmedAction : Text.trim record.action = record.action

/-- Attributes as they stand in their column. -/
def attributesText (attributes : List String) : String :=
  if attributes.isEmpty then "-" else String.intercalate "," attributes

/-- What stands on a line besides the columns. -/
structure LineLayout where
  front : List Char := []
  markers : List Char
  afterMarkers : List Char := []
  afterOpcode : List Char := [' ']
  afterAssembly : List Char := [' ']
  afterAttributes : List Char := [' ']
  afterPattern : List Char := [' ']
  afterOperands : List Char := [' ']
  back : List Char := []

namespace LineLayout

/-- The gaps that have to be there. -/
def gaps (layout : LineLayout) : List (List Char) :=
  [layout.afterOpcode, layout.afterAssembly, layout.afterAttributes, layout.afterPattern, layout.afterOperands]

/-- A layout for a record of the given provenance: its markers are those of the provenance, in any order and number,
there are gaps between the columns, and nothing but blanks is around them. -/
structure Fits (layout : LineLayout) (provenance : Provenance) : Prop where
  front : ∀ c ∈ layout.front, Text.isBlank c = true
  markers : ∀ c ∈ layout.markers, c = '+' ∨ c = '!'
  custom : '+' ∈ layout.markers ↔ provenance.custom = true
  reference : '!' ∈ layout.markers ↔ provenance.reference = true
  afterMarkers : IsGap layout.afterMarkers ∧ (layout.markers = [] → layout.afterMarkers = [])
  gaps : ∀ gap ∈ layout.gaps, IsGap gap ∧ gap ≠ []
  back : ∀ c ∈ layout.back, Text.isBlank c = true

/-- The columns of a record from the action on, and so on up to the markers. -/
def fromAction (record : Record) : List Char :=
  '"' :: (record.action.toList ++ ['"'])

def fromOperands (layout : LineLayout) (record : Record) : List Char :=
  record.operands.toList ++ (layout.afterOperands ++ fromAction record)

def fromPattern (layout : LineLayout) (record : Record) : List Char :=
  '"' :: (record.bitPattern.toList ++ '"' :: (layout.afterPattern ++ layout.fromOperands record))

def fromAttributes (layout : LineLayout) (record : Record) : List Char :=
  (attributesText record.attributes).toList ++ (layout.afterAttributes ++ layout.fromPattern record)

def fromAssembly (layout : LineLayout) (record : Record) : List Char :=
  record.assembly.toList ++ (layout.afterAssembly ++ layout.fromAttributes record)

def fromOpcode (layout : LineLayout) (record : Record) : List Char :=
  record.opcode.toList ++ (layout.afterOpcode ++ layout.fromAssembly record)

def fromMarkers (layout : LineLayout) (record : Record) : List Char :=
  layout.markers ++ (layout.afterMarkers ++ layout.fromOpcode record)

/-- A record on a line. -/
def write (layout : LineLayout) (record : Record) : String :=
  String.ofList (layout.front ++ layout.fromMarkers record ++ layout.back)

end LineLayout

/-! ### What can follow -/

theorem isGap_cases {c : Char} (h : isGap c = true) : c = ' ' ∨ c = '\t' := by
  simpa [isGap] using h

theorem skip_of_stops {cs : List Char} (h : Stops isGap cs) : RuleKind.spaced.skip cs = cs :=
  @skip_gap [] cs nofun h

theorem stops_gap {accepts : Char → Bool} {gap : List Char} (hgap : IsGap gap ∧ gap ≠ [])
    (hspace : accepts ' ' = false) (htab : accepts '\t' = false) (rest : List Char) :
    Stops accepts (gap ++ rest) := by
  cases gap with
  | nil => exact absurd rfl hgap.2
  | cons c gap =>
    refine .cons ?_
    rcases isGap_cases (hgap.1 c List.mem_cons_self) with rfl | rfl
    · exact hspace
    · exact htab

theorem isGap_of_isBareChar {c : Char} (h : isBareChar c = true) : isGap c = false := by
  simp only [isBareChar, Bool.not_eq_true', Bool.or_eq_false_iff] at h
  exact h.1

theorem isOpcodeChar_of_isNameStart {c : Char} (h : isNameStart c = true) : isOpcodeChar c = true := by
  rw [isOpcodeChar, isNamePart_of_isNameStart h, Bool.true_or]

theorem toNat_of_isNameStart {c : Char} (h : isNameStart c = true) :
    65 ≤ c.toNat ∧ c.toNat ≤ 122 := by
  simp only [isNameStart, Char.isAlpha, Char.isUpper, Char.isLower, Bool.or_eq_true, Bool.and_eq_true,
    decide_eq_true_eq, beq_iff_eq, ge_iff_le, UInt32.le_iff_toNat_le] at h
  rcases h with (⟨hlo, hhi⟩ | ⟨hlo, hhi⟩) | rfl
  · exact ⟨hlo, Nat.le_trans hhi (by decide)⟩
  · exact ⟨Nat.le_trans (by decide) hlo, hhi⟩
  · decide

theorem isBlank_of_isNameStart {c : Char} (h : isNameStart c = true) : Text.isBlank c = false := by
  obtain ⟨hlo, hhi⟩ := toNat_of_isNameStart h
  simp only [Text.isBlank, Bool.or_eq_false_iff, Bool.and_eq_false_iff, decide_eq_false_iff_not,
    beq_eq_false_iff_ne]
  omega

theorem IsBare.stops {text : String} (h : IsBare text) (rest : List Char) :
    Stops isGap (text.toList ++ rest) :=
  .run h.1 h.2 (fun _ => isGap_of_isBareChar) rest

theorem IsOpcode.stops {opcode : String} (h : IsOpcode opcode) {accepts : Char → Bool}
    (haccepts : ∀ c, isNameStart c = true → accepts c = false) (rest : List Char) :
    Stops accepts (opcode.toList ++ rest) :=
  stops_of_isNameStart h.1 haccepts rest

/-! ### Reading one column -/

theorem parse_kind {markers rest : List Char} (hne : markers ≠ [])
    (hmarkers : ∀ c ∈ markers, c = '+' ∨ c = '!')
    (hrest : Stops (fun c => c == '+' || c == '!') rest) :
    kind.parse .spaced (markers ++ rest) = some (.ofMarkers markers, rest) := by
  have hrun : ∀ c ∈ markers, (c == '+' || c == '!') = true := fun c hc => by
    rcases hmarkers c hc with rfl | rfl <;> rfl
  rw [kind, parse_rule, parse_map, parse_several_char (enter_sealed_ne_spaced _) hne hrun hrest]
  rfl

theorem parse_opcodeName {opcode : String} {rest : List Char} (hopcode : IsOpcode opcode)
    (hrest : Stops isOpcodeChar rest) :
    opcodeName.parse .spaced (opcode.toList ++ rest) = some (opcode, rest) := by
  obtain ⟨⟨c, hc, hstart⟩, hchars⟩ := hopcode
  obtain ⟨cs, hcs⟩ := List.head?_eq_some_iff.mp hc
  rw [hcs] at hchars
  have htail : ∀ c ∈ cs, isOpcodeChar c = true := (List.forall_mem_cons.mp hchars).2
  rw [opcodeName, parse_rule, parse_map, hcs, List.cons_append]
  refine (congrArg _ (parse_char_many_char (enter_sealed_ne_spaced _) hstart htail hrest)).trans ?_
  show some (String.ofList (c :: cs), rest) = some (opcode, rest)
  rw [← hcs, String.ofList_toList]

theorem parse_bareColumn {text : String} {rest : List Char} (name : Rule) (htext : IsBare text)
    (hrest : Stops isBareChar rest) :
    (bareColumn name).parse .spaced (text.toList ++ rest) = some (text, rest) := by
  rw [bareColumn, parse_rule, parse_map]
  refine (congrArg _ (parse_several_char (enter_sealed_ne_spaced _) htext.1 htext.2 hrest)).trans ?_
  rw [Option.map_some, String.ofList_toList]

theorem parse_quotedColumn {name : Rule} {content : Peg Rule String} {x : String}
    {inner rest : List Char}
    (hcontent : content.parse .joined (inner ++ '"' :: rest) = some (x, '"' :: rest)) :
    (quotedColumn name content).parse .spaced ('"' :: (inner ++ '"' :: rest)) = some (x, rest) := by
  rw [quotedColumn, parse_rule, parse_before, parse_exactly_self, Option.bind_some]
  show (after content (exactly '"')).parse .joined (inner ++ '"' :: rest) = some (x, rest)
  rw [parse_after, hcontent, Option.bind_some]
  show ((exactly '"' : Peg Rule Char).parse .joined ('"' :: rest)).map _ = some (x, rest)
  rw [parse_exactly_self, Option.map_some]

theorem parse_patternText {pattern : String} (rest : List Char) (hpattern : '"' ∉ pattern.toList) :
    patternText.parse .joined (pattern.toList ++ '"' :: rest) = some (pattern, '"' :: rest) := by
  have hrun : ∀ c ∈ pattern.toList, (c != '"') = true := fun c hc =>
    bne_iff_ne.mpr fun h => hpattern (h ▸ hc)
  rw [patternText, parse_rule, parse_map, parse_many_char _ (enter_sealed_ne_spaced _),
    takeWhile_run hrun (.cons rfl), dropWhile_run hrun (.cons rfl), Option.map_some,
    String.ofList_toList]

/-- What ends an action: a quotation mark with nothing but gaps behind it. -/
def closing : Peg Rule Unit :=
  .before (.exactly '"') (.before (.many (.char isGap)) Grammar.finish)

/-- A character of an action. -/
def actionChar : Peg Rule Char :=
  .before (.absent closing) (.char fun _ => true)

theorem parse_closing (rest : List Char) :
    closing.parse .sealed ('"' :: rest) = if rest.dropWhile isGap = [] then some ((), []) else none := by
  rw [closing, parse_before, parse_exactly_self, Option.bind_some]
  show (before (many (char isGap)) Grammar.finish).parse .sealed rest = _
  rw [parse_before, parse_many_char _ (by decide), Option.bind_some]
  exact parse_finish _

theorem parse_actionChar_last : actionChar.parse .sealed ['"'] = none := by
  rw [actionChar, parse_before, parse, parse_closing]
  rfl

/-- With a quotation mark still to come that something else than a gap stands for, an action does not end. -/
theorem parse_actionChar (c : Char) (cs : List Char) :
    actionChar.parse .sealed (c :: (cs ++ ['"'])) = some (c, cs ++ ['"']) := by
  have hclosing : closing.parse .sealed (c :: (cs ++ ['"'])) = none := by
    by_cases hc : c = '"'
    · subst hc
      rw [parse_closing, if_neg]
      intro hnil
      exact absurd (List.dropWhile_eq_nil_iff.mp hnil '"' (by simp)) (by decide)
    · rw [closing, parse_before, exactly, parse_char_cons, if_neg (by simpa using hc)]
      rfl
  rw [actionChar, parse_before, parse, hclosing]
  show (char fun _ => true : Peg Rule Char).parse .sealed (c :: (cs ++ ['"'])) = _
  rw [parse_char_cons, if_pos rfl]

/-- An action is read up to the last quotation mark. -/
theorem parse_actionText (action : String) :
    actionText.parse .joined (action.toList ++ ['"']) = some (action, ['"']) := by
  have hsteps (cs : List Char) :
      Steps (fun cs => actionChar.parse .sealed (RuleKind.sealed.skip cs)) (cs ++ ['"']) cs ['"'] := by
    induction cs with
    | nil => exact .stop parse_actionChar_last
    | cons c cs ih => exact .more (parse_actionChar c cs) ih
  rw [actionText, parse_rule, parse_map]
  refine (congrArg _ (parse_many_steps rfl rfl (hsteps action.toList))).trans ?_
  rw [Option.map_some, String.ofList_toList]

/-! ### Reading attributes -/

/-- What is written behind the first attribute. -/
def othersText (others : List String) : List Char :=
  others.flatMap fun other => ',' :: other.toList

theorem toList_attributesText_cons (first : String) (others : List String) :
    (attributesText (first :: others)).toList = first.toList ++ othersText others :=
  Text.toList_intercalate_cons "," first others

theorem IsAttribute.stops {token : String} (h : IsAttribute token) {accepts : Char → Bool}
    (hbefore : accepts '<' = false) (hafter : accepts '>' = false)
    (haccepts : ∀ c, isNameStart c = true → accepts c = false) (rest : List Char) :
    Stops accepts (token.toList ++ rest) := by
  rcases h with rfl | rfl | hname
  · exact .cons hbefore
  · exact .cons hafter
  · exact hname.stops haccepts rest

theorem parse_attributeToken {token : String} {rest : List Char} (htoken : IsAttribute token)
    (hrest : Stops isNamePart rest) :
    attributeToken.parse .spaced (token.toList ++ rest) = some (token, rest) := by
  have hmark (c : Char) : (map (String.ofList [·]) (exactly c) : Peg Rule String).parse .sealed (c :: rest) =
      some (String.ofList [c], rest) := by
    rw [parse_map, parse_exactly_self, Option.map_some]
  have hnoMark {c : Char} {cs : List Char} (h : Stops (· == c) cs) :
      (map (String.ofList [·]) (exactly c) : Peg Rule String).parse .sealed cs = none := by
    rw [parse_map, exactly, parse_char_none h, Option.map_none]
  rw [attributeToken, parse_rule]
  show Peg.parse _ .sealed _ = _
  rcases htoken with rfl | rfl | hname
  · rw [parse_choice]
    exact congrArg (Option.or · _) (hmark '<')
  · rw [parse_choice, parse_choice]
    show Option.or (Peg.parse _ _ ('>' :: rest)) (Option.or (Peg.parse _ _ ('>' :: rest)) _) = _
    rw [hnoMark (.cons rfl), hmark '>']
    rfl
  · have hne (d : Char) (hd : isNameStart d = false) : Stops (· == d) (token.toList ++ rest) :=
      hname.stops (fun c hc => beq_of_accepts hc hd) rest
    rw [parse_choice, parse_choice, hnoMark (hne '<' rfl), hnoMark (hne '>' rfl),
      parse_identifier hname hrest]
    rfl

theorem stops_othersText (others : List String) : Stops isNamePart (othersText others) := by
  cases others with
  | nil => exact .nil
  | cons other others => exact .cons rfl

theorem IsAttribute.skip {token : String} (h : IsAttribute token) (rest : List Char) :
    RuleKind.spaced.skip (token.toList ++ rest) = token.toList ++ rest :=
  skip_of_stops (h.stops rfl rfl (fun _ => isGap_of_isNameStart) rest)

theorem steps_others {others : List String} (hothers : ∀ token ∈ others, IsAttribute token) :
    Steps (fun cs => (before (exactly ',') attributeToken : Peg Rule String).parse .spaced
      (RuleKind.spaced.skip cs)) (othersText others) others [] := by
  induction others with
  | nil => exact .stop (by simp [othersText, RuleKind.skip, parse_before, exactly, parse_char_nil])
  | cons other others ih =>
    obtain ⟨hother, hothers⟩ := List.forall_mem_cons.mp hothers
    refine .more ?_ (ih hothers)
    show (before (exactly ',') attributeToken : Peg Rule String).parse .spaced
      (',' :: (other.toList ++ othersText others)) = _
    rw [parse_before, parse_exactly_self, Option.bind_some, hother.skip]
    exact parse_attributeToken hother (stops_othersText others)

/-- Attributes are read back from their column. -/
theorem parse_attributeList {attributes : List String}
    (hattributes : ∀ token ∈ attributes, IsAttribute token) :
    attributeList.parse .spaced (attributesText attributes).toList = some (attributes, []) := by
  cases attributes with
  | nil => rfl
  | cons first others =>
    obtain ⟨hfirst, hothers⟩ := List.forall_mem_cons.mp hattributes
    have hnoDash : Stops (· == '-') (first.toList ++ othersText others) :=
      hfirst.stops rfl rfl (fun c hc => beq_of_accepts hc rfl) _
    have hskip : RuleKind.spaced.skip (othersText others) = othersText others := by
      cases others with
      | nil => rfl
      | cons other others => rfl
    have htokens := parse_seq_of (parse_attributeToken hfirst (stops_othersText others))
      ((congrArg _ hskip).trans (parse_many_steps rfl hskip (steps_others hothers)))
    rw [attributeList, parse_rule, toList_attributesText_cons]
    show (before start _ : Peg Rule (List String)).parse .spaced _ = _
    rw [parse_before, parse_start, Option.bind_some, hfirst.skip, parse_after, parse_choice, parse_map,
      exactly, parse_char_none hnoDash, parse_map, htokens]
    rfl

theorem isBare_attributesText {attributes : List String}
    (hattributes : ∀ token ∈ attributes, IsAttribute token) : IsBare (attributesText attributes) := by
  have hbare {token : String} (h : IsAttribute token) : ∀ c ∈ token.toList, isBareChar c = true := by
    rcases h with rfl | rfl | hname
    · exact List.forall_mem_singleton.mpr rfl
    · exact List.forall_mem_singleton.mpr rfl
    · intro c hc
      have hpart := hname.2 c hc
      by_contra hnot
      have hcases : c = ' ' ∨ c = '\t' ∨ c = '"' := by
        simp only [isBareChar, isGap, Bool.not_eq_true', Bool.not_eq_false, Bool.or_eq_true, beq_iff_eq,
          or_assoc] at hnot
        exact hnot
      rcases hcases with rfl | rfl | rfl <;> exact absurd hpart (by decide)
  have hne {token : String} (h : IsAttribute token) : token.toList ≠ [] := by
    rcases h with rfl | rfl | ⟨⟨c, hc, _⟩, _⟩
    · decide
    · decide
    · intro hnil
      rw [hnil] at hc
      cases hc
  cases attributes with
  | nil => decide
  | cons first others =>
    obtain ⟨hfirst, hothers⟩ := List.forall_mem_cons.mp hattributes
    rw [IsBare, toList_attributesText_cons]
    refine ⟨fun hnil => hne hfirst (List.append_eq_nil_iff.mp hnil).1, ?_⟩
    refine List.forall_mem_append.mpr ⟨hbare hfirst, fun c hc => ?_⟩
    obtain ⟨other, hother, hc⟩ := List.mem_flatMap.mp hc
    rcases List.mem_cons.mp hc with rfl | hc
    · rfl
    · exact hbare (hothers other hother) c hc

/-! ### Reading a line -/

theorem parse_column {α β : Type} {first : Peg Rule α} {second : Peg Rule β} {x : α} {y : β}
    {cs gap rest left : List Char} (hgap : IsGap gap) (hrest : Stops isGap rest)
    (hfirst : first.parse .spaced cs = some (x, gap ++ rest))
    (hsecond : second.parse .spaced rest = some (y, left)) :
    (seq first second).parse .spaced cs = some ((x, y), left) :=
  parse_seq_of hfirst ((congrArg _ (skip_gap hgap hrest)).trans hsecond)

namespace LineLayout

variable {layout : LineLayout} {record : Record}

theorem stops_fromMarkers (hrecord : record.WellFormed) (hlayout : layout.Fits record.provenance)
    {accepts : Char → Bool} (hcustom : accepts '+' = false) (hreference : accepts '!' = false)
    (haccepts : ∀ c, isNameStart c = true → accepts c = false) :
    Stops accepts (layout.fromMarkers record) := by
  rw [fromMarkers]
  cases hmarkers : layout.markers with
  | nil =>
    rw [hlayout.afterMarkers.2 hmarkers]
    exact hrecord.opcode.stops haccepts _
  | cons c markers =>
    refine .cons ?_
    rcases hlayout.markers c (hmarkers ▸ List.mem_cons_self) with rfl | rfl
    · exact hcustom
    · exact hreference

theorem trimmed_fromMarkers (hrecord : record.WellFormed) (hlayout : layout.Fits record.provenance) :
    Text.Trimmed (layout.fromMarkers record) := by
  refine ⟨stops_fromMarkers hrecord hlayout rfl rfl fun _ => isBlank_of_isNameStart, ?_⟩
  -- the last character is the quotation mark behind the action
  simp only [fromMarkers, fromOpcode, fromAssembly, fromAttributes, fromPattern, fromOperands, fromAction,
    List.reverse_append, List.reverse_cons, List.append_assoc]
  exact .cons rfl

theorem ofMarkers_eq (hlayout : layout.Fits record.provenance) :
    Provenance.ofMarkers layout.markers = record.provenance := by
  have hcustom : layout.markers.contains '+' = record.provenance.custom :=
    Bool.eq_iff_iff.mpr (List.contains_iff_mem.trans hlayout.custom)
  have hreference : layout.markers.contains '!' = record.provenance.reference :=
    Bool.eq_iff_iff.mpr (List.contains_iff_mem.trans hlayout.reference)
  rw [Provenance.ofMarkers, hcustom, hreference]

theorem parse_markers (hrecord : record.WellFormed) (hlayout : layout.Fits record.provenance) :
    ∃ provenance?, (optional kind).parse .spaced (layout.fromMarkers record) =
        some (provenance?, layout.afterMarkers ++ layout.fromOpcode record) ∧
      provenance?.getD {} = record.provenance := by
  have hmarker (c : Char) (hc : isNameStart c = true) : (c == '+' || c == '!') = false :=
    Bool.or_eq_false_iff.mpr ⟨beq_of_accepts hc rfl, beq_of_accepts hc rfl⟩
  have hopcode : Stops (fun c => c == '+' || c == '!') (layout.fromOpcode record) :=
    hrecord.opcode.stops hmarker _
  rw [parse_optional, ← ofMarkers_eq hlayout, fromMarkers]
  by_cases hne : layout.markers = []
  · rw [hne, hlayout.afterMarkers.2 hne, List.nil_append, List.nil_append]
    have hnone : kind.parse .spaced (layout.fromOpcode record) = none := by
      rw [kind, parse_rule, parse_map, parse_several_char_none hopcode, Option.map_none]
    exact ⟨none, by rw [hnone]; rfl, rfl⟩
  · have hstops : Stops (fun c => c == '+' || c == '!')
        (layout.afterMarkers ++ layout.fromOpcode record) := by
      by_cases hgap : layout.afterMarkers = []
      · rw [hgap]
        exact hopcode
      · exact stops_gap ⟨hlayout.afterMarkers.1, hgap⟩ rfl rfl _
    exact ⟨some _, by rw [parse_kind hne hlayout.markers hstops]; rfl, rfl⟩

theorem Fits.each_gap {provenance : Provenance} (hlayout : layout.Fits provenance) :
    (IsGap layout.afterOpcode ∧ layout.afterOpcode ≠ []) ∧
      (IsGap layout.afterAssembly ∧ layout.afterAssembly ≠ []) ∧
      (IsGap layout.afterAttributes ∧ layout.afterAttributes ≠ []) ∧
      (IsGap layout.afterPattern ∧ layout.afterPattern ≠ []) ∧
      IsGap layout.afterOperands ∧ layout.afterOperands ≠ [] := by
  simpa [LineLayout.gaps] using hlayout.gaps

/-- The columns that are read from a line. -/
theorem parse_row (hrecord : record.WellFormed) (hlayout : layout.Fits record.provenance) :
    row.parse .spaced (layout.fromMarkers record) =
      some (⟨record.provenance, record.opcode, record.assembly, attributesText record.attributes,
        record.bitPattern, record.operands, record.action⟩, []) := by
  obtain ⟨hgap₁, hgap₂, hgap₃, hgap₄, hgap₅⟩ := hlayout.each_gap
  have hattributes := isBare_attributesText hrecord.attributes
  obtain ⟨provenance?, hmarkers, hprovenance⟩ := parse_markers hrecord hlayout
  -- one column after the other, from the last one on
  have hfinish : Grammar.finish.parse .spaced [] = some ((), []) := parse_finish _
  have haction := parse_seq_of
    (parse_quotedColumn (parse_actionText record.action) :
      (quotedColumn .action actionText).parse .spaced (fromAction record) = some (record.action, [])) hfinish
  have hoperands := parse_column hgap₅.1 (.cons rfl)
    (parse_bareColumn .operands hrecord.operands (stops_gap hgap₅ rfl rfl _)) haction
  have hpattern := parse_column hgap₄.1 (hrecord.operands.stops _)
    (parse_quotedColumn (parse_patternText _ hrecord.bitPattern) :
      (quotedColumn .bitPattern patternText).parse .spaced (layout.fromPattern record) = _) hoperands
  have hclasses := parse_column hgap₃.1 (.cons rfl)
    (parse_bareColumn .attributes hattributes (stops_gap hgap₃ rfl rfl _)) hpattern
  have hassembly := parse_column hgap₂.1 (hattributes.stops _)
    (parse_bareColumn .assembly hrecord.assembly (stops_gap hgap₂ rfl rfl _)) hclasses
  have hopcode := parse_column hgap₁.1 (hrecord.assembly.stops _)
    (parse_opcodeName hrecord.opcode (stops_gap hgap₁ rfl rfl _)) hassembly
  have hline := parse_column hlayout.afterMarkers.1
    (hrecord.opcode.stops (fun _ => isGap_of_isNameStart) _) hmarkers hopcode
  have hstart : (start : Peg Rule Unit).parse .spaced (layout.fromMarkers record) =
      some ((), layout.fromMarkers record) := parse_start .spaced _
  have hskip : RuleKind.spaced.skip (layout.fromMarkers record) = layout.fromMarkers record :=
    skip_of_stops (stops_fromMarkers hrecord hlayout rfl rfl fun _ => isGap_of_isNameStart)
  rw [row, parse_rule, parse_map, ← hprovenance]
  refine (congrArg _ (parse_seq_of hstart ((congrArg _ hskip).trans hline))).trans ?_
  rfl

end LineLayout

theorem readAll_of_parse {α : Type} {g : Peg Rule α} {cs rest : List Char} {x : α}
    (h : g.parse .spaced cs = some (x, rest)) : readAll g cs = .ok x := by
  rw [readAll, Peg.read, h]
  rfl

/-- Whether a line without its outer blanks holds no record. -/
def isIdle (cs : List Char) : Bool :=
  cs.head?.all (· == '#')

theorem parseLine_eq (line : Nat) (text : String) :
    parseLine line text =
      if isIdle (Text.trimChars text.toList) then .ok none
      else (parseRow line (Text.trimChars text.toList)).map some := by
  rw [parseLine]
  split
  · next h => rw [h]; rfl
  · next h => rw [h]; rfl
  · next cs hnil hhash =>
    have hbusy : isIdle (Text.trimChars text.toList) = false := by
      cases hcs : Text.trimChars text.toList with
      | nil => exact absurd hcs hnil
      | cons c cs =>
        refine beq_eq_false_iff_ne.mpr ?_
        rintro rfl
        exact hhash cs hcs
    rw [hbusy, if_neg Bool.false_ne_true]
    cases parseRow line (Text.trimChars text.toList) <;> rfl

theorem parseRow_fromMarkers {layout : LineLayout} {record : Record} (hrecord : record.WellFormed)
    (hlayout : layout.Fits record.provenance) :
    parseRow record.line (layout.fromMarkers record) = .ok record := by
  have hattributes : parseAttributes record.line (attributesText record.attributes) =
      .ok record.attributes := by
    unfold parseAttributes
    rw [readAll_of_parse (parse_attributeList hrecord.attributes)]
  unfold parseRow
  rw [readAll_of_parse (LineLayout.parse_row hrecord hlayout)]
  simp only [hattributes, hrecord.trimmedPattern, hrecord.trimmedAction]

/-- A record is read back from each of its lines. -/
theorem parseLine_of_fits {layout : LineLayout} {record : Record} (hrecord : record.WellFormed)
    (hlayout : layout.Fits record.provenance) :
    parseLine record.line (layout.write record) = .ok (some record) := by
  have htrim : Text.trimChars (layout.write record).toList = layout.fromMarkers record := by
    rw [LineLayout.write, String.toList_ofList]
    exact Text.trimChars_around hlayout.front (LineLayout.trimmed_fromMarkers hrecord hlayout) hlayout.back
  have hbusy : isIdle (layout.fromMarkers record) = false := by
    have hstops : Stops (· == '#') (layout.fromMarkers record) :=
      LineLayout.stops_fromMarkers hrecord hlayout rfl rfl
        fun c hc => beq_of_accepts hc rfl
    cases hcs : layout.fromMarkers record with
    | nil => simp [LineLayout.fromMarkers, LineLayout.fromOpcode, LineLayout.fromAssembly,
        LineLayout.fromAttributes, LineLayout.fromPattern] at hcs
    | cons c cs => exact hstops c (by rw [hcs]; rfl)
  rw [parseLine_eq, htrim, hbusy, parseRow_fromMarkers hrecord hlayout]
  rfl

/-! ### What is read -/

theorem spells_opcodeName (mode : RuleKind) :
    opcodeName.Spells mode fun opcode _ => IsOpcode opcode := by
  refine ((spells_char_many_char _ _ (enter_sealed_ne_spaced mode)).map.imp ?_).rule
  rintro _ _ ⟨⟨c, cs⟩, rfl, hc, hcs, _⟩
  rw [IsOpcode, String.toList_ofList]
  exact ⟨⟨c, rfl, hc⟩, List.forall_mem_cons.mpr ⟨isOpcodeChar_of_isNameStart hc, hcs⟩⟩

theorem spells_bareColumn (name : Rule) (mode : RuleKind) :
    (bareColumn name).Spells mode fun text _ => IsBare text := by
  refine ((spells_several_char _ (enter_sealed_ne_spaced mode)).map.imp ?_).rule
  rintro _ _ ⟨cs, rfl, hne, hcs, _⟩
  rw [IsBare, String.toList_ofList]
  exact ⟨hne, hcs⟩

theorem spells_patternText (mode : RuleKind) :
    patternText.Spells mode fun pattern _ => '"' ∉ pattern.toList := by
  refine ((spells_char _).many.map.imp ?_).rule
  rintro _ _ ⟨cs, rfl, hrows⟩
  obtain ⟨_, hcs⟩ := hrows.chars (enter_sealed_ne_spaced mode)
  rw [String.toList_ofList]
  intro hquote
  exact absurd (hcs _ hquote) (by decide)

theorem spells_quotedColumn (name : Rule) (mode : RuleKind) {content : Peg Rule String}
    {p : String → Prop} (h : ∀ mode, content.Spells mode fun x _ => p x) :
    (quotedColumn name content).Spells mode fun x _ => p x := by
  refine (((spells_exactly '"').before ((h _).after (spells_exactly '"'))).imp ?_).rule
  rintro x _ ⟨_, _, _, _, _, _, ⟨_, _, _, _, hx, _⟩, _⟩
  exact hx

theorem spells_attributeToken (mode : RuleKind) :
    attributeToken.Spells mode fun token _ => IsAttribute token := by
  have hmark (c : Char) (hc : IsAttribute (String.ofList [c])) (mode : RuleKind) :
      (map (String.ofList [·]) (exactly c) : Peg Rule String).Spells mode
        fun token _ => IsAttribute token := by
    refine (spells_char (· == c)).map.imp ?_
    rintro _ _ ⟨d, rfl, hd, _⟩
    rw [eq_of_beq hd]
    exact hc
  exact ((hmark '<' (.inl rfl) _).choice ((hmark '>' (.inr (.inl rfl)) _).choice
    ((spells_identifier _).imp fun _ _ h => .inr (.inr h.1)))).rule

theorem forall_mem_of_inRows {α : Type} {mode : RuleKind} {p : α → Prop} {xs : List α}
    {text : List Char} (h : InRows mode (fun x _ => p x) xs text) : ∀ x ∈ xs, p x := by
  induction h with
  | nil => exact nofun
  | cons hx _ _ ih => exact List.forall_mem_cons.mpr ⟨hx, ih⟩

theorem isAttribute_of_parseAttributes {line : Nat} {text : String} {attributes : List String}
    (h : parseAttributes line text = .ok attributes) : ∀ token ∈ attributes, IsAttribute token := by
  have hnone : (map (fun _ => []) (exactly '-') : Peg Rule (List String)).Spells .spaced
      fun attributes _ => ∀ token ∈ attributes, IsAttribute token := by
    refine (spells_exactly '-').map.imp ?_
    rintro _ _ ⟨_, rfl, _⟩
    exact nofun
  have hother : (before (exactly ',') attributeToken : Peg Rule String).Spells .spaced
      fun token _ => IsAttribute token := by
    refine ((spells_exactly ',').before (spells_attributeToken _)).imp ?_
    rintro token _ ⟨_, _, _, _, _, _, htoken, _⟩
    exact htoken
  have hsome : (map (fun tokens => tokens.1 :: tokens.2)
      (seq attributeToken (many (before (exactly ',') attributeToken))) : Peg Rule (List String)).Spells
        .spaced fun attributes _ => ∀ token ∈ attributes, IsAttribute token := by
    refine ((spells_attributeToken _).seq hother.many).map.imp ?_
    rintro _ _ ⟨⟨first, others⟩, rfl, _, _, _, hfirst, _, hothers, _⟩
    exact List.forall_mem_cons.mpr ⟨hfirst, forall_mem_of_inRows hothers⟩
  unfold parseAttributes at h
  split at h
  · next list hread =>
    cases h
    obtain ⟨_, hparse⟩ := exists_parse_of_readAll hread
    rw [attributeList, parse_rule] at hparse
    obtain ⟨_, _, _, hparse⟩ := parse_before_eq_some hparse
    obtain ⟨_, _, hparse, _⟩ := parse_after_eq_some hparse
    obtain ⟨_, _, hlist⟩ := hnone.choice hsome _ _ _ hparse
    exact hlist
  · cases h

theorem columns_of_readAll {cs : List Char} {columns : Row} (h : readAll row cs = .ok columns) :
    IsOpcode columns.opcode ∧ IsBare columns.assembly ∧ '"' ∉ columns.bitPattern.toList ∧
      IsBare columns.operands := by
  obtain ⟨_, hparse⟩ := exists_parse_of_readAll h
  rw [row, parse_rule] at hparse
  obtain ⟨_, hseq, rfl⟩ := parse_map_eq_some hparse
  -- the start and the markers, then one column after the other
  obtain ⟨_, _, hseq⟩ := parse_seq_eq_some hseq
  obtain ⟨_, _, hseq⟩ := parse_seq_eq_some hseq
  obtain ⟨_, hopcode, hseq⟩ := parse_seq_eq_some hseq
  obtain ⟨_, hassembly, hseq⟩ := parse_seq_eq_some hseq
  obtain ⟨_, _, hseq⟩ := parse_seq_eq_some hseq
  obtain ⟨_, hpattern, hseq⟩ := parse_seq_eq_some hseq
  obtain ⟨_, hoperands, _⟩ := parse_seq_eq_some hseq
  obtain ⟨_, _, hopcode⟩ := spells_opcodeName _ _ _ _ hopcode
  obtain ⟨_, _, hassembly⟩ := spells_bareColumn _ _ _ _ _ hassembly
  obtain ⟨_, _, hpattern⟩ := spells_quotedColumn _ _ spells_patternText _ _ _ hpattern
  obtain ⟨_, _, hoperands⟩ := spells_bareColumn _ _ _ _ _ hoperands
  exact ⟨hopcode, hassembly, hpattern, hoperands⟩

theorem wellFormed_of_parseRow {line : Nat} {cs : List Char} {record : Record}
    (h : parseRow line cs = .ok record) : record.line = line ∧ record.WellFormed := by
  unfold parseRow at h
  split at h
  · cases h
  · next columns hread =>
    obtain ⟨hopcode, hassembly, hpattern, hoperands⟩ := columns_of_readAll hread
    split at h
    · cases h
    · next attributes hattributes =>
      cases h
      exact ⟨rfl, {
        opcode := hopcode
        assembly := hassembly
        attributes := isAttribute_of_parseAttributes hattributes
        bitPattern := fun hquote => hpattern (Text.mem_of_mem_trim hquote)
        trimmedPattern := Text.trim_trim _
        operands := hoperands
        trimmedAction := Text.trim_trim _ }⟩

theorem wellFormed_of_parseLine {line : Nat} {text : String} {record : Record}
    (h : parseLine line text = .ok (some record)) : record.line = line ∧ record.WellFormed := by
  rw [parseLine_eq] at h
  split at h
  · cases h
  · cases hrow : parseRow line (Text.trimChars text.toList) with
    | error e => rw [hrow] at h; cases h
    | ok record' =>
      rw [hrow] at h
      cases h
      exact wellFormed_of_parseRow hrow

theorem parseLines_wellFormed {line : Nat} {texts : List String} {records : List Record}
    (h : parseLines line texts = .ok records) : ∀ record ∈ records, record.WellFormed := by
  induction texts generalizing line records with
  | nil =>
    cases h
    exact nofun
  | cons text texts ih =>
    rw [parseLines] at h
    split at h
    · cases h
    · next record? hline =>
      split at h
      · cases h
      · next rest hrest =>
        cases h
        intro record hrecord
        rcases List.mem_append.mp hrecord with hfirst | hlater
        · rw [Option.mem_toList] at hfirst
          cases hfirst
          exact (wellFormed_of_parseLine hline).2
        · exact ih hrest record hlater

theorem parseSource_wellFormed {source : String} {records : List Record}
    (h : parseSource source = .ok records) : ∀ record ∈ records, record.WellFormed :=
  parseLines_wellFormed h

/-! ### Writing and reading -/

/-- The markers of a provenance, each once. -/
def markersOf (provenance : Provenance) : List Char :=
  (if provenance.custom then ['+'] else []) ++ (if provenance.reference then ['!'] else [])

/-- A record on a line with one space between its columns. -/
def text (record : Record) : String :=
  LineLayout.write { markers := markersOf record.provenance } record

theorem fits_markersOf (provenance : Provenance) :
    LineLayout.Fits { markers := markersOf provenance } provenance := by
  obtain ⟨custom, reference⟩ := provenance
  cases custom <;> cases reference <;> constructor <;>
    simp [markersOf, LineLayout.gaps, IsGap, isGap]

/-- A record whose columns can stand on a line is read back from it, however the line is laid out. Every record that is
read is such a record, and is read again from its text with one space between the columns. -/
theorem parseLine_write (record : Record) :
    (record.WellFormed → ∀ layout : LineLayout, layout.Fits record.provenance →
      parseLine record.line (layout.write record) = .ok (some record)) ∧
    ∀ (line : Nat) (text : String), parseLine line text = .ok (some record) →
      record.line = line ∧ record.WellFormed ∧ parseLine line record.text = .ok (some record) := by
  refine ⟨fun hrecord layout hlayout => parseLine_of_fits hrecord hlayout, fun line text h => ?_⟩
  obtain ⟨rfl, hrecord⟩ := wellFormed_of_parseLine h
  exact ⟨rfl, hrecord, parseLine_of_fits hrecord (fits_markersOf _)⟩

/-- A record whose action holds quotation marks, one of them at its end. -/
def trapRecord : Record where
  line := 7
  provenance := { custom := true, reference := true }
  opcode := "c.trap"
  assembly := "rs1,\u3000"
  attributes := ["I", "<", ">"]
  bitPattern := "000 code[13]"
  operands := "x[9:5]"
  action := "state.trap(\" \", code) \""

/-- A line with repeated markers, tabs, and other blanks at its ends. -/
def wideLayout : LineLayout where
  front := ['\u3000', ' ']
  markers := ['!', '+', '!']
  afterMarkers := ['\t']
  afterOpcode := [' ', '\t', ' ']
  back := ['\u2028', '\r']

theorem parseLine_write_trapRecord :
    trapRecord.WellFormed ∧ wideLayout.Fits trapRecord.provenance ∧
      parseLine 7 (wideLayout.write trapRecord) = .ok (some trapRecord) ∧
      parseLine 7 trapRecord.text = .ok (some trapRecord) := by
  have hrecord : trapRecord.WellFormed := by constructor <;> decide +kernel
  have hlayout : wideLayout.Fits trapRecord.provenance := by
    constructor <;> simp [wideLayout, trapRecord, LineLayout.gaps, IsGap, isGap, Text.isBlank]
  have hread := (parseLine_write trapRecord).1 hrecord wideLayout hlayout
  exact ⟨hrecord, hlayout, hread, ((parseLine_write trapRecord).2 7 _ hread).2.2⟩

end Record

end IsaForge
