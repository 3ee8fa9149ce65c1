import IsaForge.Overlap
import IsaForge.Proofs.Resolution

/-!
Overlapping instructions. Comparing the fixed bits of two instructions decides how the sets of words that they accept lie
to each other (`exists_accepts_iff`, `forall_accepts_iff`), so that `Overlap.kind?` can be put in terms of these sets
(`kind?_eq_some_iff`). The overlaps of a list stand in the order of the positions of their instructions
(`among_positions`).
-/

namespace IsaForge

/-! ### Masks and words -/

/-- Every bit of the first mask is one of the second. -/
def MaskWithin (a b : Word) : Prop :=
  ∀ k, a.getLsbD k = true → b.getLsbD k = true

theorem and_not_eq_zero_iff (a b : Word) : a &&& ~~~b = 0 ↔ MaskWithin a b := by
  constructor
  · intro h k hk
    have hbit := congrArg (BitVec.getLsbD · k) h
    have hlt := BitVec.lt_of_getLsbD hk
    simpa [hk, hlt] using hbit
  · intro h
    refine BitVec.eq_of_getLsbD_eq fun k hk => ?_
    have := h k
    cases ha : a.getLsbD k <;> simp_all

namespace Instruction

theorem WellFormed.mask_of_match {i : Instruction} (H : i.WellFormed) {k : Nat}
    (hk : i.matchValue.getLsbD k = true) : i.mask.getLsbD k = true := by
  rw [← H.match_within, BitVec.getLsbD_and, Bool.and_eq_true] at hk
  exact hk.2

/-- An instruction accepts the words that agree with it on its fixed bits. -/
theorem accepts_iff {i : Instruction} (H : i.WellFormed) (word : Word) :
    i.accepts word = true ↔
      ∀ k, i.mask.getLsbD k = true → word.getLsbD k = i.matchValue.getLsbD k := by
  rw [accepts, beq_iff_eq]
  constructor
  · intro h k hk
    rw [← h, BitVec.getLsbD_and, hk, Bool.and_true]
  · intro h
    refine BitVec.eq_of_getLsbD_eq fun k _ => ?_
    rw [BitVec.getLsbD_and]
    cases hmask : i.mask.getLsbD k with
    | true => rw [Bool.and_true, h k hmask]
    | false =>
      have hmatch : i.matchValue.getLsbD k ≠ true :=
        fun hk => by rw [H.mask_of_match hk] at hmask; cases hmask
      rw [Bool.and_false, Bool.eq_false_of_not_eq_true hmatch]

/-- The fixed bits of two instructions agree where both fix them. -/
def Agree (a b : Instruction) : Prop :=
  ∀ k, a.mask.getLsbD k = true → b.mask.getLsbD k = true →
    a.matchValue.getLsbD k = b.matchValue.getLsbD k

theorem xor_and_eq_zero_iff (a b : Instruction) :
    (a.matchValue ^^^ b.matchValue) &&& (a.mask &&& b.mask) = 0 ↔ Agree a b := by
  constructor
  · intro h k ha hb
    have hbit := congrArg (BitVec.getLsbD · k) h
    simpa [ha, hb] using hbit
  · intro h
    refine BitVec.eq_of_getLsbD_eq fun k _ => ?_
    have hk := h k
    cases ha : a.mask.getLsbD k <;> cases hb : b.mask.getLsbD k <;> simp_all

/-- Some word is accepted by both instructions exactly if their fixed bits agree. -/
theorem exists_accepts_iff {a b : Instruction} (Ha : a.WellFormed) (Hb : b.WellFormed) :
    (∃ word, a.accepts word = true ∧ b.accepts word = true) ↔ Agree a b := by
  simp only [accepts_iff Ha, accepts_iff Hb]
  constructor
  · rintro ⟨word, hacc, hbcc⟩ k ha hb
    rw [← hacc k ha, ← hbcc k hb]
  · intro h
    refine ⟨a.matchValue ||| b.matchValue, fun k ha => ?_, fun k hb => ?_⟩
    · rw [BitVec.getLsbD_or, Bool.or_eq_left_iff_imp]
      intro hbit
      rw [h k ha (Hb.mask_of_match hbit), hbit]
    · rw [BitVec.getLsbD_or, Bool.or_eq_right_iff_imp]
      intro hbit
      rw [← h k (Ha.mask_of_match hbit) hb, hbit]

/-- The second instruction accepts no other words exactly if it fixes the bits of the first. -/
theorem forall_accepts_iff {a b : Instruction} (Ha : a.WellFormed) (Hb : b.WellFormed)
    (hagree : Agree a b) :
    (∀ word, b.accepts word = true → a.accepts word = true) ↔ MaskWithin a.mask b.mask := by
  constructor
  · intro h k hk
    obtain ⟨word, -, hword⟩ := (exists_accepts_iff Ha Hb).mpr hagree
    by_contra hb
    -- The word with bit `k` turned over is still accepted by the second instruction, but not by the first.
    have hturned : ∀ l, (word ^^^ BitVec.twoPow 32 k).getLsbD l =
        (word.getLsbD l != decide (l = k)) := by
      intro l
      have hlt := BitVec.lt_of_getLsbD hk
      simp [BitVec.getLsbD_xor, BitVec.getLsbD_twoPow, hlt, eq_comm]
    have hother : b.accepts (word ^^^ BitVec.twoPow 32 k) = true := by
      rw [accepts_iff Hb] at hword ⊢
      intro l hl
      have hne : l ≠ k := fun heq => hb (heq ▸ hl)
      rw [hturned, ← hword l hl, decide_eq_false hne, Bool.bne_false]
    have hword' := (accepts_iff Ha _).mp (h _ hword) k hk
    have hother' := (accepts_iff Ha _).mp (h _ hother) k hk
    rw [hturned, ← hword'] at hother'
    simp at hother'
  · intro h word hword
    rw [accepts_iff Ha]
    rw [accepts_iff Hb] at hword
    intro k hk
    rw [hword k (h k hk), hagree k hk (h k hk)]

end Instruction

/-! ### Kinds of overlaps -/

namespace Overlap

open Instruction

theorem kind?_eq (a b : Instruction) [Decidable (Agree a b)] [Decidable (MaskWithin a.mask b.mask)]
    [Decidable (MaskWithin b.mask a.mask)] :
    kind? a b =
      if ¬ Agree a b then none
      else if a.width ≠ b.width then some .lowHalf
      else if MaskWithin a.mask b.mask then some .shadowed
      else if MaskWithin b.mask a.mask then none
      else some .ambiguous := by
  unfold kind?
  simp only [ne_eq, xor_and_eq_zero_iff, and_not_eq_zero_iff]

/-- The first instruction accepts some but not all words of the second and no others. -/
def Specializes (a b : Instruction) : Prop :=
  (∀ word, a.accepts word = true → b.accepts word = true) ∧
    ∃ word, b.accepts word = true ∧ a.accepts word = false

theorem specializes_iff {a b : Instruction} (Ha : a.WellFormed) (Hb : b.WellFormed)
    (hagree : Agree a b) :
    Specializes a b ↔ MaskWithin b.mask a.mask ∧ ¬ MaskWithin a.mask b.mask := by
  have hagree' : Agree b a := fun k hb ha => (hagree k ha hb).symm
  rw [Specializes, forall_accepts_iff Hb Ha hagree', ← forall_accepts_iff Ha Hb hagree]
  simp

/-- What the kind of an overlap says about the words that two instructions accept. -/
def KindHolds (a b : Instruction) : OverlapKind → Prop
  | .lowHalf => a.width ≠ b.width
  | .shadowed => a.width = b.width ∧ ∀ word, b.accepts word = true → a.accepts word = true
  | .ambiguous => a.width = b.width ∧ ¬ ∀ word, b.accepts word = true → a.accepts word = true

theorem kind?_eq_some_iff {a b : Instruction} (Ha : a.WellFormed) (Hb : b.WellFormed)
    (kind : OverlapKind) :
    kind? a b = some kind ↔
      ((∃ word, a.accepts word = true ∧ b.accepts word = true) ∧
        ¬ (a.width = b.width ∧ Specializes a b)) ∧ KindHolds a b kind := by
  classical
  rw [kind?_eq, exists_accepts_iff Ha Hb]
  by_cases hagree : Agree a b
  · have hcovers := forall_accepts_iff Ha Hb hagree
    have hspecial := specializes_iff Ha Hb hagree
    by_cases hwidth : a.width = b.width
    · by_cases hfirst : MaskWithin a.mask b.mask <;>
        cases kind <;> simp [KindHolds, hagree, hwidth, hfirst, hcovers, hspecial]
    · cases kind <;> simp [KindHolds, hagree, hwidth]
  · simp [hagree]

theorem exists_kindHolds (a b : Instruction) : ∃ kind, KindHolds a b kind := by
  by_cases hwidth : a.width = b.width
  · by_cases hcovers : ∀ word, b.accepts word = true → a.accepts word = true
    · exact ⟨.shadowed, hwidth, hcovers⟩
    · exact ⟨.ambiguous, hwidth, hcovers⟩
  · exact ⟨.lowHalf, hwidth⟩

theorem isSome_kind?_iff {a b : Instruction} (Ha : a.WellFormed) (Hb : b.WellFormed) :
    (kind? a b).isSome ↔ (∃ word, a.accepts word = true ∧ b.accepts word = true) ∧
      ¬ (a.width = b.width ∧ Specializes a b) := by
  simp only [Option.isSome_iff_exists, kind?_eq_some_iff Ha Hb, exists_and_left,
    and_iff_left (exists_kindHolds a b)]

/-! ### Positions -/

/-- The overlaps of an instruction with those after it. -/
def row (earlier : Instruction) (rest : List Instruction) : List Overlap :=
  rest.filterMap fun later => (kind? earlier later).map fun kind => ⟨earlier, later, kind⟩

/-- The overlaps of an instruction with those after it stand in the order of the latter. -/
theorem row_positions (earlier : Instruction) (rest : List Instruction) :
    ∃ js : List Nat, js.Pairwise (· < ·) ∧
      (∀ j, j ∈ js ↔ ∃ later ∈ rest[j]?, (kind? earlier later).isSome) ∧
      List.Forall₂ (fun j overlap => overlap.earlier = earlier ∧ rest[j]? = some overlap.later ∧
        kind? earlier overlap.later = some overlap.kind) js (row earlier rest) := by
  induction rest with
  | nil => exact ⟨[], .nil, by simp, .nil⟩
  | cons later rest ih =>
    obtain ⟨js, hlt, hmem, hrow⟩ := ih
    have hlt' : (js.map (· + 1)).Pairwise (· < ·) :=
      List.pairwise_map.mpr (hlt.imp fun h => Nat.succ_lt_succ h)
    have hrow' : List.Forall₂ (fun j overlap => overlap.earlier = earlier ∧
        (later :: rest)[j]? = some overlap.later ∧
        kind? earlier overlap.later = some overlap.kind) (js.map (· + 1)) (row earlier rest) :=
      List.forall₂_map_left_iff.mpr hrow
    cases hkind : kind? earlier later with
    | none =>
      refine ⟨js.map (· + 1), hlt', fun j => ?_, ?_⟩
      · cases j with
        | zero => simp [hkind]
        | succ j => simpa using hmem j
      · rwa [row, List.filterMap_cons_none (by rw [hkind]; rfl)]
    | some kind =>
      refine ⟨0 :: js.map (· + 1), ?_, fun j => ?_, ?_⟩
      · exact List.pairwise_cons.mpr ⟨by simp, hlt'⟩
      · cases j with
        | zero => simp [hkind]
        | succ j => simpa using hmem j
      · rw [row, List.filterMap_cons_some (by rw [hkind]; rfl)]
        exact .cons ⟨rfl, rfl, hkind⟩ hrow'

/-- The overlaps of a list stand in the order of the positions of their instructions. -/
theorem among_positions (instructions : List Instruction) :
    ∃ pairs : List (Nat × Nat), pairs.Pairwise (Prod.Lex (· < ·) (· < ·)) ∧
      (∀ i j, (i, j) ∈ pairs ↔ i < j ∧ ∃ a ∈ instructions[i]?, ∃ b ∈ instructions[j]?,
        (kind? a b).isSome) ∧
      List.Forall₂ (fun pair overlap => pair.1 < pair.2 ∧
        instructions[pair.1]? = some overlap.earlier ∧ instructions[pair.2]? = some overlap.later ∧
        kind? overlap.earlier overlap.later = some overlap.kind) pairs (among instructions) := by
  induction instructions with
  | nil => exact ⟨[], .nil, by simp, .nil⟩
  | cons earlier rest ih =>
    obtain ⟨pairs, hlex, hmem, hpairs⟩ := ih
    obtain ⟨js, hlt, hjs, hrow⟩ := row_positions earlier rest
    refine ⟨js.map (fun j => (0, j + 1)) ++ pairs.map (fun pair => (pair.1 + 1, pair.2 + 1)), ?_,
      fun i j => ?_, ?_⟩
    · refine List.pairwise_append.mpr ⟨?_, ?_, ?_⟩
      · exact List.pairwise_map.mpr (hlt.imp fun h => .right _ (Nat.succ_lt_succ h))
      · refine List.pairwise_map.mpr (hlex.imp fun h => ?_)
        cases h with
        | left _ _ h => exact .left _ _ (Nat.succ_lt_succ h)
        | right _ h => exact .right _ (Nat.succ_lt_succ h)
      · simp only [List.mem_map]
        rintro _ ⟨j, _, rfl⟩ _ ⟨pair, _, rfl⟩
        exact .left _ _ (Nat.succ_pos _)
    · cases i with
      | zero =>
        cases j with
        | zero => simp
        | succ j => simpa using hjs j
      | succ i =>
        cases j with
        | zero => simp
        | succ j => simpa using hmem i j
    · rw [among]
      refine List.rel_append ?_ ?_
      · refine List.forall₂_map_left_iff.mpr (hrow.imp ?_)
        rintro j ⟨_, later, kind⟩ ⟨rfl, hlater, hkind⟩
        exact ⟨Nat.succ_pos j, rfl, hlater, hkind⟩
      · refine List.forall₂_map_left_iff.mpr (hpairs.imp ?_)
        rintro pair overlap ⟨hlt, hoverlap⟩
        exact ⟨Nat.succ_lt_succ hlt, hoverlap⟩

end Overlap

/-! ### Shadowed instructions -/

/-- An item that is found only where an earlier one is found as well can be left out. -/
theorem find?_eraseIdx {α : Type} {p : α → Bool} {xs : List α} {i j : Nat} {a b : α} (hij : i < j)
    (ha : xs[i]? = some a) (hb : xs[j]? = some b) (h : p b = true → p a = true) :
    (xs.eraseIdx j).find? p = xs.find? p := by
  obtain ⟨hj, rfl⟩ := List.getElem?_eq_some_iff.mp hb
  have hxs : xs = xs.take j ++ xs[j] :: xs.drop (j + 1) := by
    rw [← List.drop_eq_getElem_cons hj, List.take_append_drop]
  rw [List.eraseIdx_eq_take_drop_succ]
  nth_rewrite 3 [hxs]
  rw [List.find?_append, List.find?_append, List.find?_cons]
  cases hp : p xs[j] with
  | false => rfl
  | true =>
    have hmem : a ∈ xs.take j := List.mem_of_getElem? ((List.getElem?_take_of_lt hij).trans ha)
    have hsome : ((xs.take j).find? p).isSome := List.find?_isSome.mpr ⟨a, hmem, h hp⟩
    rw [Option.or_of_isSome hsome, Option.or_of_isSome hsome]

namespace Table

/-- The table without the instruction at the given position. -/
def without (table : Table) (j : Nat) : Table :=
  { table with instructions := table.instructions.eraseIdx j }

theorem select?_without {table : Table} {i j : Nat} {a b : Instruction} (hij : i < j)
    (ha : table.instructions[i]? = some a) (hb : table.instructions[j]? = some b)
    (hwidth : a.width = b.width) (hcovers : ∀ word, b.accepts word = true → a.accepts word = true)
    (word : Word) (available : Nat) :
    (table.without j).select? word available = table.select? word available := by
  refine find?_eraseIdx hij ha hb fun h => ?_
  rw [Bool.and_eq_true] at h ⊢
  exact ⟨hwidth ▸ h.1, hcovers word h.2⟩

theorem WellFormed.notMem_without {table : Table} (H : table.WellFormed) {j : Nat}
    {b : Instruction} (hb : table.instructions[j]? = some b) :
    b ∉ (table.without j).instructions := by
  intro hmem
  obtain ⟨i, hne, hi⟩ := List.mem_eraseIdx_iff_getElem?.mp hmem
  have hlt : i < table.instructions.length := (List.getElem?_eq_some_iff.mp hi).1
  exact hne ((List.getElem?_inj hlt (List.Nodup.of_map _ H.nodup)).mp (hi.trans hb.symm))

end Table

/-- The overlaps of a table are the pairs of instructions that accept a common word, in the order of their positions,
apart from an earlier instruction that is a special case of a later one of the same width. Their kind says how the words
that they accept lie to each other. An instruction that is shadowed is never found, and can be left out. -/
theorem overlaps_spec {records : List Record} {controlFlow : List String} {table : Table}
    (h : Table.ofRecords records controlFlow = .ok table) :
    ∃ pairs : List (Nat × Nat), pairs.Pairwise (Prod.Lex (· < ·) (· < ·)) ∧
      (∀ i j a b, i < j → table.instructions[i]? = some a → table.instructions[j]? = some b →
        ((i, j) ∈ pairs ↔ (∃ word, a.accepts word = true ∧ b.accepts word = true) ∧
          ¬ (a.width = b.width ∧ Overlap.Specializes a b))) ∧
      List.Forall₂ (fun pair overlap =>
        pair.1 < pair.2 ∧ table.instructions[pair.1]? = some overlap.earlier ∧
        table.instructions[pair.2]? = some overlap.later ∧
        (∀ kind, overlap.kind = kind ↔ Overlap.KindHolds overlap.earlier overlap.later kind) ∧
        (overlap.kind = .shadowed → ∀ word available,
          (table.decode word available).entry ≠ .instruction overlap.later ∧
          (table.without pair.2).decode word available = table.decode word available))
        pairs table.overlaps := by
  have H := Table.ofRecords_wellFormed h
  have hwf : ∀ {i : Nat} {a : Instruction}, table.instructions[i]? = some a → a.WellFormed :=
    fun ha => H.instructions _ (List.mem_of_getElem? ha)
  obtain ⟨pairs, hlex, hmem, hpairs⟩ := Overlap.among_positions table.instructions
  refine ⟨pairs, hlex, fun i j a b hij ha hb => ?_, hpairs.imp ?_⟩
  · rw [hmem, and_iff_right hij, ← Overlap.isSome_kind?_iff (hwf ha) (hwf hb)]
    simp [ha, hb]
  · rintro ⟨i, j⟩ ⟨a, b, kind⟩ ⟨hij, ha, hb, hkind⟩
    have hiff := Overlap.kind?_eq_some_iff (hwf ha) (hwf hb)
    refine ⟨hij, ha, hb, fun kind' => ?_, ?_⟩
    · have hkind' := hiff kind'
      rw [and_iff_right ((hiff kind).mp hkind).1, hkind, Option.some_inj] at hkind'
      exact hkind'
    · rintro rfl word available
      obtain ⟨hwidth, hcovers⟩ := ((hiff _).mp hkind).2
      have hselect := Table.select?_without hij ha hb hwidth hcovers word available
      rw [ne_eq, Table.entry_decode_eq_iff, Table.decode_eq, Table.decode_eq, hselect]
      refine ⟨fun hfound => ?_, rfl⟩
      rw [← hselect] at hfound
      exact H.notMem_without hb (List.mem_of_find?_eq_some hfound)

/-- A compressed instruction that shadows another one, and a standard one whose low half both accept. -/
def shadowRecords : List Record :=
  [{ line := 1, provenance := {}, opcode := "c.any", assembly := "", attributes := [],
     bitPattern := "0...............", operands := "-", action := "" },
   { line := 2, provenance := {}, opcode := "c.some", assembly := "", attributes := [],
     bitPattern := "00.............1", operands := "-", action := "" },
   { line := 3, provenance := {}, opcode := "all", assembly := "", attributes := [],
     bitPattern := "1111............ ................", operands := "-", action := "" }]

theorem overlaps_spec_shadowRecords :
    ∃ table, Table.ofRecords shadowRecords [] = .ok table ∧
      table.overlaps.map Overlap.kind = [.shadowed, .lowHalf, .lowHalf] ∧
      ∃ overlap ∈ table.overlaps, ∀ word available,
        (table.decode word available).entry ≠ .instruction overlap.later := by
  obtain ⟨table, htable, hkinds⟩ : ∃ table, Table.ofRecords shadowRecords [] = .ok table ∧
      decide (table.overlaps.map Overlap.kind = [.shadowed, .lowHalf, .lowHalf]) = true :=
    exists_ok_of_any (by decide +kernel)
  have hkinds := of_decide_eq_true hkinds
  obtain ⟨pairs, _, _, hpairs⟩ := overlaps_spec htable
  have hshadowed : OverlapKind.shadowed ∈ table.overlaps.map Overlap.kind := by
    rw [hkinds]
    exact List.mem_cons_self
  obtain ⟨overlap, hmem, hkind⟩ := List.mem_map.mp hshadowed
  obtain ⟨_, _, _, _, _, _, hnever⟩ := exists_left_of_forall₂ hpairs hmem
  exact ⟨table, htable, hkinds, overlap, hmem, fun word available => (hnever hkind word available).1⟩

end IsaForge
