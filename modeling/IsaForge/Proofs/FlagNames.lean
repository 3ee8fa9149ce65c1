import IsaForge.Proofs.Classification
import IsaForge.Proofs.Digits
import IsaForge.Proofs.OpcodeNames

/-!
The names of flags. A token wants its upper-case form as the name of its flag. If that form is already the name of a flag, or
the form that an earlier token wanted, the token is numbered by its position instead. `Taken` says which tokens these are,
and `getElem?_flags_iff` what the flags are. A number tells two numbered flags apart, but nobody looks whether the
numbered name is in use, so that it can be the form of an earlier token (`nodup_flags_iff`).
-/

namespace IsaForge

namespace OpcodeList

open Code Grammar

/-! ### Numbered names -/

/-- A name with a position added. -/
def numbered (name : String) (position : Nat) : String :=
  name ++ "_" ++ Text.decimal position

theorem toList_numbered (name : String) (position : Nat) :
    (numbered name position).toList = name.toList ++ '_' :: Nat.toDigits 10 position := by
  simp [numbered, Text.decimal]

theorem isDigit_of_mem_digits {n : Nat} {c : Char} (h : c ∈ Nat.toDigits 10 n) : c.isDigit = true :=
  Nat.isDigit_of_mem_toDigits (by decide) (by decide) h

/-- The position is what stands behind the last underscore. -/
theorem eq_of_numbered_eq {name other : String} {i j : Nat} (h : numbered name i = numbered other j) : i = j := by
  have hrun (name : String) (i : Nat) :
      (numbered name i).toList.reverse.takeWhile Char.isDigit = (Nat.toDigits 10 i).reverse := by
    rw [toList_numbered, List.reverse_append, List.reverse_cons, List.append_assoc]
    exact takeWhile_run (fun c hc => isDigit_of_mem_digits (List.mem_reverse.mp hc)) (.cons rfl)
  have hdigits : Nat.toDigits 10 i = Nat.toDigits 10 j := by
    rw [← List.reverse_inj, ← hrun name i, ← hrun other j, h]
  exact Text.toDigits_ten_injective hdigits

/-! ### Which tokens are numbered -/

/-- The token at a position is numbered, where `bases` are the names that the tokens want: an earlier one wants the same
name, or its numbered name is the one that is wanted. -/
inductive Taken (bases : List String) : Nat → Prop
  | repeated {i j : Nat} {base : String} : i < j → bases[i]? = some base → bases[j]? = some base → Taken bases j
  | number {i j : Nat} {base : String} : i < j → Taken bases i → bases[i]? = some base →
    bases[j]? = some (numbered base i) → Taken bases j

/-- The flag of the token at a position. -/
def IsFlag (bases : List String) (i : Nat) (flag : String) : Prop :=
  ∃ base, bases[i]? = some base ∧ (Taken bases i ∧ flag = numbered base i ∨ ¬ Taken bases i ∧ flag = base)

/-- A name is in use when the tokens before a position have their flags. -/
def InUse (bases : List String) (position : Nat) (name : String) : Prop :=
  ∃ i < position, bases[i]? = some name ∨ IsFlag bases i name

variable {bases : List String}

theorem taken_iff_inUse {j : Nat} {base : String} (hbase : bases[j]? = some base) :
    Taken bases j ↔ InUse bases j base := by
  constructor
  · intro h
    cases h with
    | repeated hlt hi hj =>
      cases hbase.symm.trans hj
      exact ⟨_, hlt, .inl hi⟩
    | number hlt htaken hi hj =>
      cases hbase.symm.trans hj
      exact ⟨_, hlt, .inr ⟨_, hi, .inl ⟨htaken, rfl⟩⟩⟩
  · rintro ⟨i, hlt, hi | ⟨other, hi, ⟨htaken, rfl⟩ | ⟨_, rfl⟩⟩⟩
    · exact .repeated hlt hi hbase
    · exact .number hlt htaken hi hbase
    · exact .repeated hlt hi hbase

theorem IsFlag.unique {i : Nat} {flag flag' : String} (h : IsFlag bases i flag) (h' : IsFlag bases i flag') :
    flag = flag' := by
  obtain ⟨base, hbase, hflag⟩ := h
  obtain ⟨base', hbase', hflag'⟩ := h'
  cases hbase.symm.trans hbase'
  rcases hflag with ⟨htaken, rfl⟩ | ⟨hfree, rfl⟩ <;> rcases hflag' with ⟨htaken', rfl⟩ | ⟨hfree', rfl⟩
  · rfl
  · exact absurd htaken hfree'
  · exact absurd htaken' hfree
  · rfl

theorem inUse_succ_iff {position : Nat} {base flag name : String} (hbase : bases[position]? = some base)
    (hflag : IsFlag bases position flag) :
    InUse bases (position + 1) name ↔ name = flag ∨ name = base ∨ InUse bases position name := by
  constructor
  · rintro ⟨i, hi, hname⟩
    rcases Nat.lt_succ_iff_lt_or_eq.mp hi with hi | rfl
    · exact .inr (.inr ⟨i, hi, hname⟩)
    · rcases hname with hname | hname
      · exact .inr (.inl (Option.some.inj (hname.symm.trans hbase)))
      · exact .inl (hname.unique hflag)
  · rintro (rfl | rfl | ⟨i, hi, hname⟩)
    · exact ⟨position, Nat.lt_succ_self _, .inr hflag⟩
    · exact ⟨position, Nat.lt_succ_self _, .inl hbase⟩
    · exact ⟨i, Nat.lt_succ_of_lt hi, hname⟩

/-! ### The flags of an axis -/

theorem length_flagsAfter (used : List String) (tokens : List (String × Nat)) :
    (flagsAfter used tokens).length = tokens.length := by
  induction tokens generalizing used with
  | nil => rfl
  | cons token tokens ih => rw [flagsAfter, List.length_cons, List.length_cons, ih]

/-- The names in use are those of the tokens before, so that each token gets its flag. -/
theorem isFlag_of_flagsAfter {used tokens : List String} {position : Nat}
    (hbases : bases.drop position = tokens.map flagBase) (hused : ∀ name, name ∈ used ↔ InUse bases position name)
    {k : Nat} {flag : String} (h : (flagsAfter used (tokens.zipIdx position))[k]? = some flag) :
    IsFlag bases (position + k) flag := by
  induction tokens generalizing used position k with
  | nil => cases h
  | cons token tokens ih =>
    have hbase : bases[position]? = some (flagBase token) := by
      rw [← List.head?_drop, hbases]
      rfl
    have hfirst : IsFlag bases position
        (if used.contains (flagBase token) then flagBase token ++ "_" ++ Text.decimal position else flagBase token) := by
      refine ⟨flagBase token, hbase, ?_⟩
      rw [taken_iff_inUse hbase, ← hused, ← List.contains_iff_mem]
      split
      · next hmem => exact .inl ⟨hmem, rfl⟩
      · next hmem => exact .inr ⟨hmem, rfl⟩
    rw [List.zipIdx_cons, flagsAfter] at h
    cases k with
    | zero =>
      cases h
      exact hfirst
    | succ k =>
      rw [Nat.add_comm k 1, ← Nat.add_assoc]
      refine ih ?_ (fun name => ?_) h
      · rw [← List.tail_drop, hbases, List.map_cons, List.tail_cons]
      · rw [inUse_succ_iff hbase hfirst, List.mem_cons, List.mem_cons, hused]

/-- The names that the tokens of an axis want. -/
def flagBases (axis : AxisMap) : List String :=
  axis.tokens.map flagBase

/-- The flags of an axis, before they become identifiers. -/
def flags (axis : AxisMap) : List String :=
  flagsAfter [] axis.positions

variable {axis : AxisMap}

theorem getElem?_flags_iff {i : Nat} {flag : String} : (flags axis)[i]? = some flag ↔ IsFlag (flagBases axis) i flag := by
  have hflag {flag : String} (h : (flags axis)[i]? = some flag) : IsFlag (flagBases axis) i flag := by
    rw [← Nat.zero_add i]
    refine isFlag_of_flagsAfter (by rfl) (fun name => ?_) h
    exact iff_of_false List.not_mem_nil nofun
  refine ⟨hflag, fun h => ?_⟩
  have hi : i < (flags axis).length := by
    obtain ⟨base, hbase, _⟩ := h
    rw [flags, length_flagsAfter, AxisMap.positions, List.length_zipIdx]
    have hi := (List.getElem?_eq_some_iff.mp hbase).1
    rwa [flagBases, List.length_map] at hi
  have hget := List.getElem?_eq_getElem hi
  rw [hget, (hflag hget).unique h]

/-- A numbered name is never looked up among the names in use: two flags are the same exactly if a numbered name is the
name that an earlier token wants. -/
theorem nodup_flags_iff : (flags axis).Nodup ↔
    ∀ i j base, i < j → Taken (flagBases axis) j → (flagBases axis)[j]? = some base →
      (flagBases axis)[i]? ≠ some (numbered base j) := by
  rw [List.nodup_iff_getElem?_ne_getElem?]
  constructor
  · intro hnodup i j base hij htaken hj hi
    have hflag : (flags axis)[j]? = some (numbered base j) := getElem?_flags_iff.mpr ⟨base, hj, .inl ⟨htaken, rfl⟩⟩
    -- of the tokens that want the numbered name, the first one gets it
    induction i using Nat.strongRecOn with
    | ind i ih =>
      by_cases htaken' : Taken (flagBases axis) i
      · cases htaken' with
        | repeated hlt hfirst hsame =>
          cases hi.symm.trans hsame
          exact ih _ hlt (hlt.trans hij) hfirst
        | number hlt _ _ hsame =>
          have heq := eq_of_numbered_eq (Option.some.inj (hi.symm.trans hsame))
          omega
      · have hlength : j < (flags axis).length := (List.getElem?_eq_some_iff.mp hflag).1
        refine hnodup i j hij hlength ?_
        rw [hflag]
        exact getElem?_flags_iff.mpr ⟨_, hi, .inr ⟨htaken', rfl⟩⟩
  · intro hfree i j hij hlength hsame
    have hget := List.getElem?_eq_getElem hlength
    obtain ⟨base, hj, hflag⟩ := getElem?_flags_iff.mp hget
    have hearlier := getElem?_flags_iff.mp (hsame.trans hget)
    rcases hflag with ⟨htaken, hflag⟩ | ⟨hnot, hflag⟩
    · rw [hflag] at hearlier
      obtain ⟨base', hi, ⟨_, hnumber⟩ | ⟨_, rfl⟩⟩ := hearlier
      · exact absurd (eq_of_numbered_eq hnumber) (by omega)
      · exact hfree i j base hij htaken hj hi
    · rw [hflag] at hearlier
      exact hnot ((taken_iff_inUse hj).mpr ⟨i, hij, .inr hearlier⟩)

/-! ### Characters of flags -/

/-- The characters of flags. -/
def isFlagChar (c : Char) : Bool :=
  c.isUpper || c.isDigit || c == '_'

theorem toNat_lt_of_isNamePart {c : Char} (h : isNamePart c = true) : c.toNat < 128 := by
  rw [isNamePart, Char.isAlphanum, Bool.or_right_comm, ← isNameStart, Bool.or_eq_true] at h
  rcases h with h | h
  · have := Record.toNat_of_isNameStart h
    omega
  · simp only [Char.isDigit, Bool.and_eq_true, decide_eq_true_eq] at h
    exact Nat.lt_of_le_of_lt (UInt32.le_iff_toNat_le.mp h.2) (by decide)

theorem toUpper_ascii : ∀ n : Fin 128, isNamePart (Char.ofNat n) = true →
    isFlagChar (Char.ofNat n).toUpper = true ∧ ((Char.ofNat n).toUpper = '_' → Char.ofNat n = '_') := by
  decide

theorem toUpper_of_isNamePart {c : Char} (h : isNamePart c = true) :
    isFlagChar c.toUpper = true ∧ (c.toUpper = '_' → c = '_') := by
  have hascii := toUpper_ascii ⟨c.toNat, toNat_lt_of_isNamePart h⟩
  simp only [Char.ofNat_toNat] at hascii
  exact hascii h

theorem toUpper_of_isUpper {c : Char} (h : c.isUpper = true) : c.toUpper = c := by
  rw [Char.toUpper, dif_neg]
  rintro ⟨hle, _⟩
  simp only [Char.isUpper, decide_eq_true_eq] at h
  exact absurd (UInt32.le_trans hle h.2) (by decide)

theorem map_toUpper_of_forall {cs : List Char} (h : ∀ c ∈ cs, c.toUpper = c) : cs.map Char.toUpper = cs :=
  (List.map_congr_left h).trans (List.map_id _)

/-- An attribute that is no stop mark wants its upper-case form. -/
theorem flagBase_cases {token : String} (h : Record.IsAttribute token) :
    flagBase token = "STOP_BEFORE" ∨ flagBase token = "STOP_AFTER" ∨
      IsName token ∧ (flagBase token).toList = token.toList.map Char.toUpper := by
  unfold flagBase
  split
  · exact .inl rfl
  · next hbefore =>
    split
    · exact .inr (.inl rfl)
    · next hafter => exact .inr (.inr ⟨(h.resolve_left hbefore).resolve_left hafter, String.toList_ofList⟩)

theorem isFlagChar_flagBase {token : String} (h : Record.IsAttribute token) :
    ∀ c ∈ (flagBase token).toList, isFlagChar c = true := by
  rcases flagBase_cases h with hbase | hbase | ⟨hname, hbase⟩
  · rw [hbase]
    exact List.all_eq_true.mp rfl
  · rw [hbase]
    exact List.all_eq_true.mp rfl
  · rw [hbase]
    exact List.forall_mem_map.mpr fun c hc => (toUpper_of_isNamePart (hname.2 c hc)).1

/-- A token that is its own upper-case form, and no stop mark, wants its own name. -/
theorem flagBase_eq_self {token : String} (h : ∀ c ∈ token.toList, isFlagChar c = true ∧ c.toUpper = c) :
    flagBase token = token := by
  have hsame : token.toList.map Char.toUpper = token.toList := map_toUpper_of_forall fun c hc => (h c hc).2
  rw [flagBase, if_neg, if_neg, hsame, String.ofList_toList]
  · rintro rfl
    exact absurd (h '>' (by decide)).1 (by decide)
  · rintro rfl
    exact absurd (h '<' (by decide)).1 (by decide)

variable (hattributes : ∀ token ∈ axis.tokens, Record.IsAttribute token)
include hattributes

theorem exists_token_of_base {i : Nat} {base : String} (h : (flagBases axis)[i]? = some base) :
    ∃ token, axis.tokens[i]? = some token ∧ Record.IsAttribute token ∧ flagBase token = base := by
  rw [flagBases, List.getElem?_map] at h
  obtain ⟨token, htoken, hbase⟩ := Option.map_eq_some_iff.mp h
  exact ⟨token, htoken, hattributes token (List.mem_of_getElem? htoken), hbase⟩

theorem isFlagChar_of_mem_flags {flag : String} (h : flag ∈ flags axis) :
    ∀ c ∈ flag.toList, isFlagChar c = true := by
  obtain ⟨i, hi⟩ := List.mem_iff_getElem?.mp h
  obtain ⟨base, hbase, hflag⟩ := getElem?_flags_iff.mp hi
  obtain ⟨token, _, htoken, rfl⟩ := exists_token_of_base hattributes hbase
  have hchars := isFlagChar_flagBase htoken
  rcases hflag with ⟨_, rfl⟩ | ⟨_, rfl⟩
  · rw [toList_numbered]
    refine List.forall_mem_append.mpr ⟨hchars, List.forall_mem_cons.mpr ⟨rfl, fun c hc => ?_⟩⟩
    rw [isFlagChar, isDigit_of_mem_digits hc, Bool.or_true, Bool.true_or]
  · exact hchars

omit hattributes

/-! ### Underscores -/

theorem numbered_ne_underscores {name : String} (hname : ∀ c ∈ name.toList, c = '_') (base : String) (i : Nat) :
    numbered base i ≠ name := by
  rintro rfl
  obtain ⟨digit, hdigit⟩ := List.exists_mem_of_ne_nil _ (Nat.toDigits_ne_nil (n := i) (b := 10))
  have hunderscore : digit = '_' := by
    apply hname
    rw [toList_numbered]
    exact List.mem_append_right _ (List.mem_cons_of_mem _ hdigit)
  have hisDigit := isDigit_of_mem_digits hdigit
  rw [hunderscore] at hisDigit
  exact absurd hisDigit (by decide)

/-- No other token has an upper-case form of underscores only. -/
theorem flagBase_eq_underscores_iff {token name : String} (htoken : Record.IsAttribute token)
    (hname : ∀ c ∈ name.toList, c = '_') : flagBase token = name ↔ token = name := by
  constructor
  · rintro rfl
    rcases flagBase_cases htoken with hbase | hbase | ⟨htoken, hbase⟩
    · rw [hbase] at hname
      exact absurd (hname 'S' (by decide)) (by decide)
    · rw [hbase] at hname
      exact absurd (hname 'S' (by decide)) (by decide)
    · have hsame : token.toList.map Char.toUpper = token.toList := by
        refine map_toUpper_of_forall fun c hc => ?_
        have hupper : c.toUpper = '_' := hname _ (hbase ▸ List.mem_map_of_mem hc)
        rw [hupper, (toUpper_of_isNamePart (htoken.2 c hc)).2 hupper]
      rw [← String.toList_inj, hbase, hsame]
  · rintro rfl
    refine flagBase_eq_self fun c hc => ?_
    rw [hname c hc]
    decide

theorem mem_flags_underscores_iff (hattributes : ∀ token ∈ axis.tokens, Record.IsAttribute token)
    (hnodup : axis.tokens.Nodup) {name : String} (hname : ∀ c ∈ name.toList, c = '_') :
    name ∈ flags axis ↔ name ∈ axis.tokens := by
  constructor
  · intro h
    obtain ⟨i, hi⟩ := List.mem_iff_getElem?.mp h
    obtain ⟨base, hbase, ⟨_, rfl⟩ | ⟨_, rfl⟩⟩ := getElem?_flags_iff.mp hi
    · exact absurd rfl (numbered_ne_underscores hname base i)
    · obtain ⟨token, htoken, hattribute, hbase⟩ := exists_token_of_base hattributes hbase
      rw [(flagBase_eq_underscores_iff hattribute hname).mp hbase] at htoken
      exact List.mem_of_getElem? htoken
  · intro h
    obtain ⟨i, hi⟩ := List.mem_iff_getElem?.mp h
    have hbase : (flagBases axis)[i]? = some name := by
      rw [flagBases, List.getElem?_map, hi, Option.map_some,
        (flagBase_eq_underscores_iff (hattributes name h) hname).mpr rfl]
    have hfree : ¬ Taken (flagBases axis) i := by
      intro htaken
      cases htaken with
      | @repeated k _ base hlt hk hsame =>
        cases hbase.symm.trans hsame
        obtain ⟨token, htoken, hattribute, hwanted⟩ := exists_token_of_base hattributes hk
        rw [(flagBase_eq_underscores_iff hattribute hname).mp hwanted] at htoken
        have hi' := (List.getElem?_eq_some_iff.mp hi).1
        exact List.nodup_iff_getElem?_ne_getElem?.mp hnodup k i hlt hi' (htoken.trans hi.symm)
      | number _ _ _ hsame =>
        exact numbered_ne_underscores hname _ _ (Option.some.inj (hbase.symm.trans hsame)).symm
    exact List.mem_of_getElem? (getElem?_flags_iff.mpr ⟨name, hbase, .inr ⟨hfree, rfl⟩⟩)

/-! ### Identifiers of flags -/

theorem nodup_flagNames_axis_iff (hattributes : ∀ token ∈ axis.tokens, Record.IsAttribute token)
    (hnodup : axis.tokens.Nodup) :
    (flagNames axis).Nodup ↔ (flags axis).Nodup ∧ ¬ ("_" ∈ axis.tokens ∧ "__" ∈ axis.tokens) := by
  have hhash : ∀ flag ∈ flags axis, '#' ∉ flag.toList := fun flag hflag hmem =>
    absurd (isFlagChar_of_mem_flags hattributes hflag '#' hmem) (by decide)
  -- the other names that cannot be raw have lower-case letters
  have hneverRaw : ∀ name ∈ Lexer.neverRaw, name ∈ flags axis → name = "_" := by
    have hlower : ∀ name ∈ Lexer.neverRaw, name.toList.all isFlagChar = true → name = "_" := by decide
    exact fun name hname hflag => hlower name hname (List.all_eq_true.mpr (isFlagChar_of_mem_flags hattributes hflag))
  have hclash : ("_" ∈ flags axis → "_" ++ "_" ∉ flags axis) ↔ ¬ ("_" ∈ axis.tokens ∧ "__" ∈ axis.tokens) := by
    rw [mem_flags_underscores_iff hattributes hnodup (by simp), not_and]
    exact imp_congr_right fun _ => not_congr (mem_flags_underscores_iff hattributes hnodup (by simp))
  rw [← hclash, flagNames, ← flags]
  constructor
  · intro h
    have hflags : (flags axis).Nodup := h.of_map
    exact ⟨hflags, (nodup_map_identText_iff hflags hhash).mp h "_" (by decide)⟩
  · rintro ⟨hflags, hfree⟩
    refine (nodup_map_identText_iff hflags hhash).mpr fun name hname hflag => ?_
    obtain rfl := hneverRaw name hname hflag
    exact hfree hflag

theorem not_taken_of_nodup (h : bases.Nodup) {j : Nat} : ¬ Taken bases j := by
  intro htaken
  induction htaken with
  | repeated hlt hi hj =>
    exact List.nodup_iff_getElem?_ne_getElem?.mp h _ _ hlt (List.getElem?_eq_some_iff.mp hj).1 (hi.trans hj.symm)
  | number _ _ _ _ ih => exact ih

theorem flagBase_of_isIsaToken {token : String} (h : TokenSet.isIsaToken token = true) : flagBase token = token := by
  rw [TokenSet.isIsaToken, Bool.and_eq_true, List.all_eq_true] at h
  refine flagBase_eq_self fun c hc => ⟨?_, toUpper_of_isUpper (h.2 c hc)⟩
  rw [isFlagChar, h.2 c hc, Bool.true_or, Bool.true_or]

theorem nodup_flagNames_of_isa (hattributes : ∀ token ∈ axis.tokens, Record.IsAttribute token)
    (hnodup : axis.tokens.Nodup) (hisa : ∀ token ∈ axis.tokens, TokenSet.isIsaToken token = true) :
    (flagNames axis).Nodup := by
  have hbases : flagBases axis = axis.tokens :=
    (List.map_congr_left fun token htoken => flagBase_of_isIsaToken (hisa token htoken)).trans (List.map_id _)
  refine (nodup_flagNames_axis_iff hattributes hnodup).mpr ⟨nodup_flags_iff.mpr ?_, ?_⟩
  · intro i j base _ htaken
    rw [hbases] at htaken
    exact absurd htaken (not_taken_of_nodup hnodup)
  · intro ⟨hunderscore, _⟩
    exact absurd (hisa "_" hunderscore) (by decide)

/-- The names of the flags of an axis are distinct exactly if no numbered name is the one that an earlier token wants, and the
tokens `_` and `__`, which become the same identifier, are not both there. Nothing is numbered on the axis of the instruction
sets, whose tokens are of upper-case letters only. -/
theorem nodup_flagNames_iff {sets : List TokenSet} {classification : Classification}
    (h : (Classifier.observeAll {} sets).finalize = .ok classification)
    (hsets : ∀ tokens ∈ sets, ∀ axis, ∀ token ∈ tokens.on axis, Record.IsAttribute token) :
    (∀ axis, (flagNames (classification.on axis)).Nodup ↔
      (∀ i j base, i < j → Taken (flagBases (classification.on axis)) j →
        (flagBases (classification.on axis))[j]? = some base →
        (flagBases (classification.on axis))[i]? ≠ some (numbered base j)) ∧
      ¬ ("_" ∈ TokenSet.union axis sets ∧ "__" ∈ TokenSet.union axis sets)) ∧
    ((∀ tokens ∈ sets, ∀ token ∈ tokens.isa, TokenSet.isIsaToken token = true) →
      (flagNames classification.isa).Nodup) := by
  have htokens (axis : Axis) : (classification.on axis).tokens = (Classifier.observeAll {} sets).on axis :=
    (AxisMap.assign_eq_ok_iff.mp (Classifier.finalize_eq_ok_iff.mp h axis)).2
  have hmem (axis : Axis) {token : String} :
      token ∈ (classification.on axis).tokens ↔ token ∈ TokenSet.union axis sets := by
    rw [htokens, ← List.mem_toFinset, Classifier.toFinset_observed]
  have hnodup (axis : Axis) : (classification.on axis).tokens.Nodup := by
    rw [htokens]
    exact (Classifier.ordered_observed sets axis).nodup
  have hattributes (axis : Axis) : ∀ token ∈ (classification.on axis).tokens, Record.IsAttribute token := by
    intro token htoken
    obtain ⟨tokens, hset, htoken⟩ := TokenSet.mem_union.mp ((hmem axis).mp htoken)
    exact hsets tokens hset axis token htoken
  refine ⟨fun axis => ?_, fun hisa => nodup_flagNames_of_isa (hattributes .isa) (hnodup .isa) fun token htoken => ?_⟩
  · rw [nodup_flagNames_axis_iff (hattributes axis) (hnodup axis), nodup_flags_iff, hmem, hmem]
  · obtain ⟨tokens, hset, htoken⟩ := TokenSet.mem_union.mp ((hmem .isa).mp htoken)
    exact hisa tokens hset token htoken

/-- Two tokens that want the same name. -/
def loadTokens : List TokenSet :=
  [.ofRecord ["I", "ld"] {} [], .ofRecord ["I", "Ld"] {} []]

theorem nodup_flagNames_loadTokens :
    (∀ tokens ∈ loadTokens, ∀ axis, ∀ token ∈ tokens.on axis, Record.IsAttribute token) ∧
    ∃ classification, (Classifier.observeAll {} loadTokens).finalize = .ok classification ∧
      flagNames classification.behavior = ["LD", "LD_1"] ∧ (flagNames classification.behavior).Nodup ∧
      (flagNames classification.isa).Nodup := by
  have hsets : ∀ tokens ∈ loadTokens, ∀ axis, ∀ token ∈ tokens.on axis, Record.IsAttribute token := by
    intro tokens htokens axis
    fin_cases htokens <;> cases axis <;> decide
  have hfinalize : (Classifier.observeAll {} loadTokens).finalize =
      .ok ⟨⟨["I"], .bits8⟩, ⟨["Ld", "ld"], .bits8⟩⟩ := by rfl
  obtain ⟨hiff, hisa⟩ := nodup_flagNames_iff hfinalize hsets
  refine ⟨hsets, _, hfinalize, by decide, (hiff .behavior).mpr ⟨?_, by decide⟩, hisa ?_⟩
  · intro i j base _ _ _ hi
    -- a numbered name has an underscore, which the tokens do not have
    have hplain : ∀ name ∈ ["LD", "LD"], '_' ∉ name.toList := by decide
    refine hplain (numbered base j) (List.mem_of_getElem? hi) ?_
    rw [toList_numbered]
    exact List.mem_append_right _ List.mem_cons_self
  · intro tokens htokens
    fin_cases htokens <;> decide

/-- The third token wants the name of the second, and its numbered name is the first. -/
def clashingTokens : List TokenSet :=
  [.ofRecord ["I", "LD_2", "Ld", "ld"] {} []]

/-- Two names of underscores, one of which gets another underscore as it cannot be an identifier. -/
def underscoreTokens : List TokenSet :=
  [.ofRecord ["I", "_", "__"] {} []]

theorem flagNames_clashingTokens :
    (∀ sets ∈ [clashingTokens, underscoreTokens], ∀ tokens ∈ sets, ∀ axis, ∀ token ∈ tokens.on axis,
      Record.IsAttribute token) ∧
    (∃ classification, (Classifier.observeAll {} clashingTokens).finalize = .ok classification ∧
      flagNames classification.behavior = ["LD_2", "LD", "LD_2"] ∧ ¬ (flagNames classification.behavior).Nodup) ∧
    ∃ classification, (Classifier.observeAll {} underscoreTokens).finalize = .ok classification ∧
      flagNames classification.behavior = ["__", "__"] ∧ ¬ (flagNames classification.behavior).Nodup := by
  have hclashing : (Classifier.observeAll {} clashingTokens).finalize =
      .ok ⟨⟨["I"], .bits8⟩, ⟨["LD_2", "Ld", "ld"], .bits8⟩⟩ := rfl
  have hunderscore : (Classifier.observeAll {} underscoreTokens).finalize =
      .ok ⟨⟨["I"], .bits8⟩, ⟨["_", "__"], .bits8⟩⟩ := rfl
  refine ⟨?_, ⟨_, hclashing, by decide, by decide⟩, _, hunderscore, by decide, by decide⟩
  intro sets hsets tokens htokens axis
  fin_cases hsets <;> fin_cases htokens <;> cases axis <;> decide

end OpcodeList

end IsaForge
