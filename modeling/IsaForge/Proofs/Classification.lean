import IsaForge.Classification
import IsaForge.Proofs.ImmediateValue

/-!
What a classification says about the attributes it was made from. A set of names is an ordered list, so that it is known by
its members (`NameSet.Ordered.eq_of_mem_iff`). Observing attributes adds them to the sets of a classifier and nothing else
(`Classifier.mem_on_observe`), and the classification depends on these sets alone. The bit of an attribute is the number of
those before it (`AxisMap.numbers_of_assign`), and the bits of observed attributes determine which ones they are.
-/

namespace IsaForge

/-! ### Sets of names -/

namespace NameSet

theorem mem_insert {a name : String} {set : NameSet} : a ∈ insert name set ↔ a = name ∨ a ∈ set := by
  induction set with
  | nil => rw [insert, List.mem_singleton, or_iff_left List.not_mem_nil]
  | cons first rest ih =>
    rw [insert]
    split
    · exact List.mem_cons
    · split
      · next heq =>
        subst heq
        rw [List.mem_cons, or_self_left]
      · rw [List.mem_cons, ih, List.mem_cons, or_left_comm]

theorem mem_insertAll {a : String} {names : List String} {set : NameSet} :
    a ∈ insertAll names set ↔ a ∈ names ∨ a ∈ set := by
  induction names generalizing set with
  | nil => exact (or_iff_right List.not_mem_nil).symm
  | cons name names ih =>
    rw [insertAll, List.foldl_cons, ← insertAll, ih, mem_insert, List.mem_cons, or_left_comm, or_assoc]

theorem mem_ofList {a : String} {names : List String} : a ∈ ofList names ↔ a ∈ names := by
  rw [ofList, mem_insertAll, or_iff_left List.not_mem_nil]

/-- The names stand in order, each once. -/
def Ordered (set : NameSet) : Prop :=
  set.Pairwise (· < ·)

theorem Ordered.insert {set : NameSet} (h : set.Ordered) (name : String) :
    (NameSet.insert name set).Ordered := by
  induction set with
  | nil => exact List.pairwise_singleton _ _
  | cons first rest ih =>
    obtain ⟨hfirst, hrest⟩ := List.pairwise_cons.mp h
    rw [NameSet.insert]
    split
    · next hlt =>
      apply List.pairwise_cons.mpr
      refine ⟨?_, h⟩
      intro a ha
      rcases List.mem_cons.mp ha with rfl | ha
      · exact hlt
      · exact String.lt_trans hlt (hfirst a ha)
    · next hnot =>
      split
      · exact h
      · next hne =>
        have hgt : first < name := lt_of_le_of_ne (String.not_lt.mp hnot) (Ne.symm hne)
        apply List.pairwise_cons.mpr
        refine ⟨?_, ih hrest⟩
        intro a ha
        rcases mem_insert.mp ha with rfl | ha
        · exact hgt
        · exact hfirst a ha

theorem Ordered.insertAll {set : NameSet} (h : set.Ordered) (names : List String) :
    (NameSet.insertAll names set).Ordered := by
  induction names generalizing set with
  | nil => exact h
  | cons name names ih => exact ih (h.insert name)

theorem ordered_ofList (names : List String) : (ofList names).Ordered :=
  Ordered.insertAll .nil names

theorem ordered_ite {p : Prop} [Decidable p] {set other : NameSet} (h : set.Ordered) (h' : other.Ordered) :
    NameSet.Ordered (if p then set else other) := by
  split
  · exact h
  · exact h'

theorem Ordered.nodup {set : NameSet} (h : set.Ordered) : List.Nodup set :=
  h.imp ne_of_lt

theorem Ordered.eq_of_mem_iff {set other : NameSet} (h : set.Ordered) (h' : other.Ordered)
    (hmem : ∀ a, a ∈ set ↔ a ∈ other) : set = other := by
  refine List.Perm.eq_of_pairwise (fun a b _ _ hab hba => ?_) h h' ?_
  · exact absurd hba (String.lt_asymm hab)
  · exact (List.perm_ext_iff_of_nodup h.nodup h'.nodup).mpr hmem

/-- The place of a name is the number of names before it. -/
theorem Ordered.length_filter_lt {set : NameSet} (h : set.Ordered) {p : Nat} {name : String}
    (hp : set[p]? = some name) : (List.filter (· < name) set).length = p := by
  induction set generalizing p with
  | nil => cases hp
  | cons first rest ih =>
    obtain ⟨hfirst, hrest⟩ := List.pairwise_cons.mp h
    cases p with
    | zero =>
      obtain rfl : first = name := Option.some.inj hp
      have hnone : List.filter (· < first) rest = [] := by
        refine List.filter_eq_nil_iff.mpr fun a ha => ?_
        simpa using String.lt_asymm (hfirst a ha)
      rw [List.filter_cons_of_neg (by simp), hnone]
      rfl
    | succ p =>
      rw [List.getElem?_cons_succ] at hp
      have hlt : first < name := hfirst name (List.mem_of_getElem? hp)
      rw [List.filter_cons_of_pos (by simpa using hlt), List.length_cons, ih hrest hp]

end NameSet

/-! ### Axes -/

namespace StorageWidth

theorem bits_le (width : StorageWidth) : width.bits ≤ 64 := by
  cases width <;> decide

theorem forCount?_eq_none_iff {count : Nat} : forCount? count = none ↔ 64 < count := by
  rw [forCount?, List.find?_eq_none]
  constructor
  · intro h
    have hwidest := h bits64 (by decide)
    rw [decide_eq_true_eq] at hwidest
    exact Nat.lt_of_not_le hwidest
  · intro h width _
    have := width.bits_le
    rw [decide_eq_true_eq]
    omega

/-- The widths are tried in ascending order, so that the first one that is wide enough is the narrowest. -/
theorem forCount?_eq_some {count : Nat} {width : StorageWidth} (h : forCount? count = some width) :
    count ≤ width.bits ∧ ∀ other : StorageWidth, count ≤ other.bits → width.bits ≤ other.bits := by
  rw [forCount?, List.find?_eq_some_iff_append] at h
  obtain ⟨hwide, narrower, wider, hsplit, hnarrower⟩ := h
  have hascending : [bits8, bits16, bits32, bits64].Pairwise fun a b => a.bits ≤ b.bits := by decide
  refine ⟨of_decide_eq_true hwide, fun other hother => ?_⟩
  have hmem : other ∈ [bits8, bits16, bits32, bits64] := by cases other <;> decide
  rw [hsplit] at hascending hmem
  rcases List.mem_append.mp hmem with hmem | hmem
  · have := hnarrower other hmem
    simp [hother] at this
  · rcases List.mem_cons.mp hmem with rfl | hmem
    · exact Nat.le_refl _
    · exact (List.pairwise_cons.mp (List.pairwise_append.mp hascending).2.1).1 other hmem

end StorageWidth

namespace AxisMap

variable {axis : AxisMap}

theorem position?_eq_some_iff (h : axis.tokens.Ordered) {token : String} {p : Nat} :
    axis.position? token = some p ↔ axis.tokens[p]? = some token := by
  rw [position?, List.findIdx?_eq_some_iff_getElem, List.getElem?_eq_some_iff]
  refine exists_congr fun hp => ?_
  rw [beq_iff_eq]
  refine and_iff_left_of_imp fun hget j hj => ?_
  rw [beq_iff_eq]
  intro hj'
  exact absurd ((h.nodup.getElem_inj_iff).mp (hj'.trans hget.symm)) (Nat.ne_of_lt hj)

/-- The numbers of an axis: each of the given attributes has the number of those before it, no other has one, and the
storage is the narrowest with a bit for each. -/
structure Numbers (axis : AxisMap) (tokens : Finset String) : Prop where
  length : axis.tokens.length = tokens.card
  position (token : String) : axis.position? token =
    if token ∈ tokens then some (tokens.filter (· < token)).card else none
  position_lt {token : String} {p : Nat} : axis.position? token = some p → p < tokens.card
  exists_unique {p : Nat} : p < tokens.card → ∃! token, axis.position? token = some p
  holds : tokens.card ≤ axis.storage.bits
  narrowest (width : StorageWidth) : tokens.card ≤ width.bits → axis.storage.bits ≤ width.bits

theorem assign_eq_ok_iff {name : Axis} {tokens : NameSet} :
    assign name tokens = .ok axis ↔
      StorageWidth.forCount? tokens.length = some axis.storage ∧ axis.tokens = tokens := by
  rw [assign]
  cases StorageWidth.forCount? tokens.length with
  | none => exact ⟨nofun, nofun⟩
  | some storage =>
    obtain ⟨tokens', storage'⟩ := axis
    constructor
    · intro h
      cases h
      exact ⟨rfl, rfl⟩
    · rintro ⟨⟨⟩, rfl⟩
      rfl

theorem assign_eq_error_iff {name : Axis} {tokens : NameSet} {e : Error} :
    assign name tokens = .error e ↔
      64 < tokens.length ∧ e = .tooManyAttributes name tokens.length := by
  rw [assign, ← StorageWidth.forCount?_eq_none_iff]
  cases StorageWidth.forCount? tokens.length with
  | none =>
    rw [and_iff_right rfl]
    exact ⟨fun h => (Except.error.inj h).symm, fun h => h ▸ rfl⟩
  | some storage => exact ⟨nofun, nofun⟩

theorem exists_assign_eq_ok_iff {name : Axis} {tokens : NameSet} :
    (∃ axis, assign name tokens = .ok axis) ↔ tokens.length ≤ 64 := by
  rw [← Nat.not_lt]
  cases h : assign name tokens with
  | error e => exact iff_of_false nofun (not_not_intro (assign_eq_error_iff.mp h).1)
  | ok axis =>
    refine iff_of_true ⟨axis, rfl⟩ fun hlt => ?_
    rw [assign_eq_error_iff.mpr ⟨hlt, rfl⟩] at h
    cases h

/-- An axis that ordered names were assigned to numbers them. -/
theorem numbers_of_assign {name : Axis} {tokens : NameSet} (hordered : tokens.Ordered)
    (h : assign name tokens = .ok axis) : axis.Numbers tokens.toFinset := by
  obtain ⟨hstorage, rfl⟩ := assign_eq_ok_iff.mp h
  have hcard : (List.toFinset axis.tokens).card = axis.tokens.length :=
    List.toFinset_card_of_nodup hordered.nodup
  have hposition : ∀ {token p}, axis.position? token = some p ↔ axis.tokens[p]? = some token :=
    position?_eq_some_iff hordered
  obtain ⟨hholds, hnarrowest⟩ := StorageWidth.forCount?_eq_some hstorage
  rw [← hcard] at hholds hnarrowest
  refine ⟨hcard.symm, fun token => ?_, fun {token p} hp => ?_, fun {p} hp => ?_, hholds, hnarrowest⟩
  · split
    · next hmem =>
      obtain ⟨p, hp⟩ := List.mem_iff_getElem?.mp (List.mem_toFinset.mp hmem)
      have hbefore : (List.toFinset axis.tokens).filter (· < token) =
          (List.filter (· < token) axis.tokens).toFinset := by
        ext other
        simp only [Finset.mem_filter, List.mem_toFinset, List.mem_filter, decide_eq_true_eq]
      rw [hposition.mpr hp, hbefore, List.toFinset_card_of_nodup (hordered.nodup.filter _),
        hordered.length_filter_lt hp]
    · next hmem =>
      rw [Option.eq_none_iff_forall_ne_some]
      intro p hp
      exact hmem (List.mem_toFinset.mpr (List.mem_of_getElem? (hposition.mp hp)))
  · rw [hcard]
    exact (List.getElem?_eq_some_iff.mp (hposition.mp hp)).1
  · rw [hcard] at hp
    refine ⟨axis.tokens[p], hposition.mpr (List.getElem?_eq_getElem hp), fun token htoken => ?_⟩
    exact (List.getElem?_eq_some_iff.mp (hposition.mp htoken)).2.symm

namespace Numbers

variable {tokens : Finset String} (N : axis.Numbers tokens)
include N

theorem exists_position {token : String} (h : token ∈ tokens) : ∃ p, axis.position? token = some p :=
  ⟨_, (N.position token).trans (if_pos h)⟩

theorem eq_of_position {token other : String} {p : Nat} (h : axis.position? token = some p)
    (h' : axis.position? other = some p) : token = other :=
  (N.exists_unique (N.position_lt h)).unique h h'

/-- A bit is set exactly if the attribute that it stands for is one of the given ones. -/
theorem getLsbD_bits_iff {set : List String} {p : Nat} :
    (axis.bits set).getLsbD p = true ↔ ∃ token ∈ set, axis.position? token = some p := by
  rw [bits, getLsbD_foldl_or, show (0 : BitVec 64).getLsbD p = false from BitVec.getLsbD_zero,
    Bool.false_or, List.any_eq_true]
  simp only [← BitVec.twoPow_eq, BitVec.getLsbD_twoPow, Bool.and_eq_true, decide_eq_true_eq]
  constructor
  · rintro ⟨q, hq, _, rfl⟩
    exact List.mem_filterMap.mp hq
  · rintro ⟨token, htoken, hp⟩
    have hlt := N.position_lt hp
    have hholds := N.holds
    have hbits := axis.storage.bits_le
    exact ⟨p, List.mem_filterMap.mpr ⟨token, htoken, hp⟩, by omega, rfl⟩

theorem getLsbD_bits_of_position {set : List String} {token : String} {p : Nat}
    (h : axis.position? token = some p) : (axis.bits set).getLsbD p = true ↔ token ∈ set := by
  rw [N.getLsbD_bits_iff]
  constructor
  · rintro ⟨other, hother, hp⟩
    rwa [N.eq_of_position h hp]
  · intro hmem
    exact ⟨token, hmem, h⟩

theorem bits_lt (set : List String) : (axis.bits set).toNat < 2 ^ axis.storage.bits := by
  refine Nat.lt_pow_two_of_testBit _ fun p hp => ?_
  rw [BitVec.testBit_toNat, ← Bool.not_eq_true, N.getLsbD_bits_iff]
  rintro ⟨token, _, hposition⟩
  have hlt := N.position_lt hposition
  have hholds := N.holds
  omega

/-- Sets of numbered attributes with the same bits have the same members. -/
theorem mem_iff_of_bits_eq {set other : List String} (hset : ∀ token ∈ set, token ∈ tokens)
    (hother : ∀ token ∈ other, token ∈ tokens) (h : axis.bits set = axis.bits other) (token : String) :
    token ∈ set ↔ token ∈ other := by
  constructor
  · intro hmem
    obtain ⟨p, hp⟩ := N.exists_position (hset token hmem)
    rwa [← N.getLsbD_bits_of_position hp, ← h, N.getLsbD_bits_of_position hp]
  · intro hmem
    obtain ⟨p, hp⟩ := N.exists_position (hother token hmem)
    rwa [← N.getLsbD_bits_of_position hp, h, N.getLsbD_bits_of_position hp]

end Numbers

end AxisMap

/-! ### Classifiers -/

namespace TokenSet

/-- The attributes of one axis. -/
def on : Axis → TokenSet → NameSet
  | .isa, tokens => tokens.isa
  | .behavior, tokens => tokens.behavior

/-- The names of both axes stand in order. -/
def Ordered (tokens : TokenSet) : Prop :=
  ∀ axis, (tokens.on axis).Ordered

theorem ordered_ofRecord (attributes : List String) (provenance : Provenance) (controlFlow : List String) :
    (ofRecord attributes provenance controlFlow).Ordered := by
  intro axis
  cases axis with
  | isa => exact NameSet.ordered_ofList _
  | behavior =>
    have hwritten := NameSet.ordered_ofList (attributes.filter fun token => !isIsaToken token)
    have hcustom := NameSet.ordered_ite (p := provenance.custom) (hwritten.insert customToken) hwritten
    have hreference := hcustom.insert referenceToken
    exact NameSet.ordered_ite (NameSet.ordered_ite (hreference.insert stopAfterToken) hreference) hcustom

theorem Ordered.eq_of_mem_iff {a b : TokenSet} (ha : a.Ordered) (hb : b.Ordered)
    (h : ∀ axis token, token ∈ a.on axis ↔ token ∈ b.on axis) : a = b := by
  have hisa : a.isa = b.isa := (ha .isa).eq_of_mem_iff (hb .isa) (h .isa)
  have hbehavior : a.behavior = b.behavior := (ha .behavior).eq_of_mem_iff (hb .behavior) (h .behavior)
  cases a
  cases b
  cases hisa
  cases hbehavior
  rfl

/-- All attributes of an axis that some of the given sets have. -/
def union (axis : Axis) (sets : List TokenSet) : Finset String :=
  (sets.flatMap (on axis)).toFinset

theorem mem_union {axis : Axis} {sets : List TokenSet} {token : String} :
    token ∈ union axis sets ↔ ∃ tokens ∈ sets, token ∈ tokens.on axis := by
  rw [union, List.mem_toFinset, List.mem_flatMap]

end TokenSet

/-- The numbers of the attributes of one axis. -/
def Classification.on : Axis → Classification → AxisMap
  | .isa, classification => classification.isa
  | .behavior, classification => classification.behavior

/-- The bits of the attributes of one axis. -/
def Classification.bitsOn (classification : Classification) : Axis → TokenSet → BitVec 64
  | .isa => classification.isaBits
  | .behavior => classification.behaviorBits

theorem Classification.bitsOn_eq (classification : Classification) (axis : Axis) (tokens : TokenSet) :
    classification.bitsOn axis tokens = (classification.on axis).bits (tokens.on axis) := by
  cases axis <;> rfl

namespace Classifier

/-- The attributes of one axis seen so far. -/
def on : Axis → Classifier → NameSet
  | .isa, classifier => classifier.isa
  | .behavior, classifier => classifier.behavior

/-- Observe sets of attributes one after the other. -/
def observeAll (classifier : Classifier) (sets : List TokenSet) : Classifier :=
  sets.foldl observe classifier

theorem on_observe (classifier : Classifier) (tokens : TokenSet) (axis : Axis) :
    (classifier.observe tokens).on axis = (classifier.on axis).insertAll (tokens.on axis) := by
  cases axis <;> rfl

theorem mem_on_observe {classifier : Classifier} {tokens : TokenSet} {axis : Axis} {token : String} :
    token ∈ (classifier.observe tokens).on axis ↔ token ∈ tokens.on axis ∨ token ∈ classifier.on axis := by
  rw [on_observe, NameSet.mem_insertAll]

theorem ordered_observe {classifier : Classifier} (h : ∀ axis, (classifier.on axis).Ordered)
    (tokens : TokenSet) (axis : Axis) : ((classifier.observe tokens).on axis).Ordered := by
  rw [on_observe]
  exact (h axis).insertAll _

theorem mem_on_observeAll {classifier : Classifier} {sets : List TokenSet} {axis : Axis} {token : String} :
    token ∈ (classifier.observeAll sets).on axis ↔
      token ∈ TokenSet.union axis sets ∨ token ∈ classifier.on axis := by
  rw [TokenSet.mem_union]
  induction sets generalizing classifier with
  | nil => exact (or_iff_right nofun).symm
  | cons tokens sets ih =>
    rw [observeAll, List.foldl_cons, ← observeAll, ih, mem_on_observe, List.exists_mem_cons_iff,
      or_left_comm, or_assoc]

theorem ordered_observeAll {classifier : Classifier} (h : ∀ axis, (classifier.on axis).Ordered)
    (sets : List TokenSet) (axis : Axis) : ((classifier.observeAll sets).on axis).Ordered := by
  induction sets generalizing classifier with
  | nil => exact h axis
  | cons tokens sets ih => exact ih (ordered_observe h tokens)

/-- What a new classifier has seen stands in order and has the observed attributes as its members. -/
theorem ordered_observed (sets : List TokenSet) (axis : Axis) : ((observeAll {} sets).on axis).Ordered := by
  refine ordered_observeAll (fun axis => ?_) sets axis
  cases axis <;> exact .nil

theorem toFinset_observed (sets : List TokenSet) (axis : Axis) :
    ((observeAll {} sets).on axis).toFinset = TokenSet.union axis sets := by
  have hnew : (({} : Classifier).on axis) = [] := by cases axis <;> rfl
  ext token
  rw [List.mem_toFinset, mem_on_observeAll, hnew, or_iff_left List.not_mem_nil]

theorem length_observed (sets : List TokenSet) (axis : Axis) :
    ((observeAll {} sets).on axis).length = (TokenSet.union axis sets).card := by
  rw [← toFinset_observed, List.toFinset_card_of_nodup (ordered_observed sets axis).nodup]

theorem eq_of_on_eq {classifier other : Classifier} (h : ∀ axis, classifier.on axis = other.on axis) :
    classifier = other := by
  cases classifier
  cases other
  cases h .isa
  cases h .behavior
  rfl

/-- The order in which attributes are observed, and how often, does not matter. -/
theorem observeAll_congr {sets others : List TokenSet}
    (h : ∀ axis, TokenSet.union axis others = TokenSet.union axis sets) :
    observeAll {} others = observeAll {} sets := by
  refine eq_of_on_eq fun axis => ?_
  refine (ordered_observed others axis).eq_of_mem_iff (ordered_observed sets axis) fun token => ?_
  rw [← List.mem_toFinset, toFinset_observed, h axis, ← toFinset_observed, List.mem_toFinset]

theorem finalize_eq_ok_iff {classifier : Classifier} {classification : Classification} :
    classifier.finalize = .ok classification ↔
      ∀ axis, AxisMap.assign axis (classifier.on axis) = .ok (classification.on axis) := by
  rw [finalize, bind_eq_ok_iff]
  simp only [bind_eq_ok_iff]
  constructor
  · rintro ⟨isa, hisa, behavior, hbehavior, h⟩
    cases h
    intro axis
    cases axis
    · exact hisa
    · exact hbehavior
  · intro h
    exact ⟨_, h .isa, _, h .behavior, rfl⟩

theorem finalize_eq_error_iff {classifier : Classifier} {e : Error} :
    classifier.finalize = .error e ↔
      (64 < classifier.isa.length ∧ e = .tooManyAttributes .isa classifier.isa.length) ∨
        (classifier.isa.length ≤ 64 ∧ 64 < classifier.behavior.length ∧
          e = .tooManyAttributes .behavior classifier.behavior.length) := by
  have hbehavior : ∀ isa, (AxisMap.assign .behavior classifier.behavior >>= fun behavior =>
      (pure ⟨isa, behavior⟩ : Except Error Classification)) = .error e ↔
        64 < classifier.behavior.length ∧ e = .tooManyAttributes .behavior classifier.behavior.length := by
    intro isa
    rw [bind_eq_error_iff, AxisMap.assign_eq_error_iff, or_iff_left nofun]
  rw [finalize, bind_eq_error_iff, AxisMap.assign_eq_error_iff]
  simp only [hbehavior]
  rw [exists_and_right, AxisMap.exists_assign_eq_ok_iff]

/-- A classification numbers the observed attributes of each axis. -/
theorem numbers_of_finalize {sets : List TokenSet} {classification : Classification}
    (h : (observeAll {} sets).finalize = .ok classification) (axis : Axis) :
    (classification.on axis).Numbers (TokenSet.union axis sets) := by
  rw [← toFinset_observed]
  exact AxisMap.numbers_of_assign (ordered_observed sets axis) (finalize_eq_ok_iff.mp h axis)

/-- What a classification says depends on which attributes of each axis were observed, and not on their order. It is refused
if there are more than 64 of one axis. Otherwise each has the number of those before it, the narrowest storage is taken, and
the bits of observed attributes say which ones they are. -/
theorem finalize_observeAll (sets : List TokenSet) (hsets : ∀ tokens ∈ sets, tokens.Ordered) :
    (∀ others, (∀ axis, TokenSet.union axis others = TokenSet.union axis sets) →
      (observeAll {} others).finalize = (observeAll {} sets).finalize) ∧
    (∀ e, (observeAll {} sets).finalize = .error e ↔
      (64 < (TokenSet.union .isa sets).card ∧
        e = .tooManyAttributes .isa (TokenSet.union .isa sets).card) ∨
      ((TokenSet.union .isa sets).card ≤ 64 ∧ 64 < (TokenSet.union .behavior sets).card ∧
        e = .tooManyAttributes .behavior (TokenSet.union .behavior sets).card)) ∧
    ∀ classification, (observeAll {} sets).finalize = .ok classification →
      (∀ axis, (classification.on axis).Numbers (TokenSet.union axis sets)) ∧
      (∀ tokens ∈ sets, ∀ axis p, (classification.bitsOn axis tokens).getLsbD p = true ↔
        ∃ token ∈ tokens.on axis, (classification.on axis).position? token = some p) ∧
      (∀ a ∈ sets, ∀ b ∈ sets, (classification.isaBits a = classification.isaBits b ∧
        classification.behaviorBits a = classification.behaviorBits b) ↔ a = b) ∧
      ∀ tokens ∈ sets, ∀ axis,
        (classification.bitsOn axis tokens).toNat < 2 ^ (classification.on axis).storage.bits := by
  refine ⟨fun others hothers => ?_, fun e => ?_, fun classification h => ?_⟩
  · rw [observeAll_congr hothers]
  · rw [← length_observed, ← length_observed]
    exact finalize_eq_error_iff
  · have N := numbers_of_finalize h
    have hseen {tokens : TokenSet} (htokens : tokens ∈ sets) (axis : Axis) :
        ∀ token ∈ tokens.on axis, token ∈ TokenSet.union axis sets :=
      fun token htoken => TokenSet.mem_union.mpr ⟨tokens, htokens, htoken⟩
    refine ⟨N, fun tokens _ axis p => ?_, fun a ha b hb => ⟨fun ⟨hisa, hbehavior⟩ => ?_, ?_⟩,
      fun tokens _ axis => ?_⟩
    · rw [Classification.bitsOn_eq]
      exact (N axis).getLsbD_bits_iff
    · refine (hsets a ha).eq_of_mem_iff (hsets b hb) fun axis => ?_
      refine (N axis).mem_iff_of_bits_eq (hseen ha axis) (hseen hb axis) ?_
      cases axis
      · exact hisa
      · exact hbehavior
    · rintro rfl
      exact ⟨rfl, rfl⟩
    · rw [Classification.bitsOn_eq]
      exact (N axis).bits_lt _

/-- The attributes of two records, which share one of them. -/
def loadAndStore : List TokenSet :=
  [.ofRecord ["M", "I", "st"] {} [], .ofRecord ["C", "I", "ld"] { custom := true } []]

theorem finalize_observeAll_loadAndStore :
    (∀ tokens ∈ loadAndStore, tokens.Ordered) ∧
      ∃ classification, (observeAll {} loadAndStore).finalize = .ok classification ∧
        (observeAll {} loadAndStore.reverse).finalize = .ok classification ∧
        classification.isa.position? "M" = some 2 ∧ classification.behavior.position? "st" = some 2 ∧
        ∃ a ∈ loadAndStore, ∃ b ∈ loadAndStore, ¬ (classification.isaBits a = classification.isaBits b ∧
          classification.behaviorBits a = classification.behaviorBits b) := by
  have hsets : ∀ tokens ∈ loadAndStore, tokens.Ordered := by
    simp [loadAndStore, TokenSet.ordered_ofRecord]
  obtain ⟨hunion, herror, hok⟩ := finalize_observeAll loadAndStore hsets
  have hisa : (TokenSet.union .isa loadAndStore).card ≤ 64 := by decide +kernel
  have hbehavior : (TokenSet.union .behavior loadAndStore).card ≤ 64 := by decide +kernel
  cases hresult : (observeAll {} loadAndStore).finalize with
  | error e => rcases (herror e).mp hresult with ⟨hlt, _⟩ | ⟨_, hlt, _⟩ <;> omega
  | ok classification =>
    obtain ⟨N, _, hequal, _⟩ := hok classification hresult
    refine ⟨hsets, classification, rfl, ?_, ?_, ?_, ?_⟩
    · rw [hunion loadAndStore.reverse (fun axis => by cases axis <;> decide +kernel), hresult]
    · exact ((N .isa).position "M").trans (by decide +kernel)
    · exact ((N .behavior).position "st").trans (by decide +kernel)
    · refine ⟨_, List.mem_cons_self, _, List.mem_cons_of_mem _ List.mem_cons_self, ?_⟩
      rw [hequal _ List.mem_cons_self _ (List.mem_cons_of_mem _ List.mem_cons_self)]
      decide

end Classifier

end IsaForge
