import IsaForge.Dispatcher

/-!
Placeholders in the action of an instruction. A path leads from the tokens of an action into the groups among them, so that
every token has a place: the path to its group and its number there. Substitution goes through the groups
(`Action.groupAt?_substitute`), so that what it does is known from what it does to the tokens of one group. It does not
change what stands before a token, and a second run finds nothing left to replace (`Action.substituteAll_again`).
-/

namespace IsaForge

open Code

/-! ### Places -/

namespace Code

/-- The tokens of the group that a path leads to. A path says which group to enter in each group, from the outside in. -/
def groupAt? : List Tree → List Nat → Option (List Tree)
  | trees, [] => some trees
  | trees, i :: path =>
    match trees[i]? with
    | some (.group _ inner) => groupAt? inner path
    | _ => none

theorem groupAt?_cons_eq_some_iff {trees group : List Tree} {i : Nat} {path : List Nat} :
    groupAt? trees (i :: path) = some group ↔
      ∃ delimiter inner, trees[i]? = some (.group delimiter inner) ∧ groupAt? inner path = some group := by
  rw [groupAt?]
  constructor
  · intro h
    split at h
    · next delimiter inner hi => exact ⟨delimiter, inner, hi, h⟩
    · cases h
  · rintro ⟨delimiter, inner, hi, h⟩
    rw [hi]
    exact h

def Tree.IsDot (tree : Tree) : Prop :=
  ∃ spacing, tree = .punct '.' spacing

/-- The token with the given number is a dot. -/
def DotAt (group : List Tree) (i : Nat) : Prop :=
  ∃ tree, group[i]? = some tree ∧ tree.IsDot

/-- The token with the given number comes after a dot that does not itself come after one. -/
def IsMember (group : List Tree) (i : Nat) : Prop :=
  ∃ dot, i = dot + 1 ∧ DotAt group dot ∧ ∀ first, dot = first + 1 → ¬ DotAt group first

/-- Two tokens that are the same, up to what is inside of a group. -/
def Tree.Alike : Tree → Tree → Prop
  | .group delimiter _, tree => ∃ inner, tree = .group delimiter inner
  | .ident name, tree => tree = .ident name
  | .punct char spacing, tree => tree = .punct char spacing
  | .literal text, tree => tree = .literal text

end Code

/-- An instruction has what a placeholder stands for: a register in the slot, or an immediate. -/
def Instruction.Has (instruction : Instruction) : Placeholder → Prop
  | .register slot _ => instruction.slots.get slot ≠ .none
  | .immediate => ∃ immediate, instruction.immediate = some immediate

theorem Placeholder.isPresent_iff {instruction : Instruction} {placeholder : Placeholder} :
    placeholder.isPresent instruction = true ↔ instruction.Has placeholder := by
  cases placeholder with
  | register slot registerClass? =>
    rw [isPresent, Instruction.Has]
    cases instruction.slots.get slot with
    | none => exact iff_of_false (by decide) (not_not_intro rfl)
    | literal _ | field _ _ _ =>
      refine iff_of_true rfl ?_
      intro h
      cases h
  | immediate => exact Option.isSome_iff_exists

namespace Action

/-- The token with the given number is the name of an operand, and not of a member of something else. -/
structure NamesOperand (group : List Tree) (i : Nat) (name : String) (placeholder : Placeholder) : Prop where
  token : group[i]? = some (.ident name)
  free : ¬ IsMember group i
  stands : Placeholder.ofName? name = some placeholder

/-- The place at the end of a path holds the name of an operand. -/
def OperandAt (trees : List Tree) (path : List Nat) (i : Nat) (name : String) (placeholder : Placeholder) : Prop :=
  ∃ group, groupAt? trees path = some group ∧ NamesOperand group i name placeholder

variable {instruction : Instruction}

/-! ### What stands before a token -/

theorem Before.next_eq_dot_iff {before : Before} {tree : Tree} :
    before.next tree = .dot ↔ tree.IsDot ∧ before = .other := by
  unfold next
  split
  · next spacing =>
    have hdot : Tree.IsDot (.punct '.' spacing) := ⟨spacing, rfl⟩
    rw [and_iff_right hdot]
    cases before <;> decide
  · next hne => exact iff_of_false nofun fun ⟨⟨spacing, h⟩, _⟩ => hne spacing h

theorem Before.next_eq_other_iff {before : Before} {tree : Tree} :
    before.next tree = .other ↔ ¬ tree.IsDot := by
  unfold next
  split
  · next spacing =>
    refine iff_of_false ?_ (not_not_intro ⟨spacing, rfl⟩)
    cases before <;> decide
  · next hne => exact iff_of_true rfl fun ⟨spacing, h⟩ => hne spacing h

/-- What stands before the token after `trees`. -/
def Before.after (before : Before) (trees : List Tree) : Before :=
  trees.foldl Before.next before

theorem Before.after_take_succ (before : Before) {group : List Tree} {i : Nat} {tree : Tree}
    (h : group[i]? = some tree) : before.after (group.take (i + 1)) = (before.after (group.take i)).next tree := by
  rw [after, List.take_add_one, h, Option.toList_some, List.foldl_append]
  rfl

/-- Substitution looks at a token with one dot before it exactly if it is the name of a member. -/
theorem Before.after_take_eq_dot_iff {group : List Tree} {i : Nat} (hi : i ≤ group.length) :
    Before.other.after (group.take i) = .dot ↔ IsMember group i := by
  cases i with
  | zero => exact ⟨nofun, nofun⟩
  | succ j =>
    obtain ⟨tree, htree⟩ : ∃ tree, group[j]? = some tree := ⟨_, List.getElem?_eq_getElem hi⟩
    have hdot : DotAt group j ↔ tree.IsDot := by
      simp [DotAt, htree]
    have hother : Before.other.after (group.take j) = .other ↔ ∀ first, j = first + 1 → ¬ DotAt group first := by
      cases j with
      | zero => exact iff_of_true rfl nofun
      | succ k =>
        obtain ⟨earlier, hearlier⟩ : ∃ earlier, group[k]? = some earlier :=
          ⟨_, List.getElem?_eq_getElem (by omega)⟩
        rw [after_take_succ _ hearlier, next_eq_other_iff]
        simp [DotAt, hearlier]
    rw [after_take_succ _ htree, next_eq_dot_iff, ← hdot, hother]
    constructor
    · intro h
      exact ⟨j, rfl, h⟩
    · rintro ⟨_, ⟨⟩, h⟩
      exact h

/-! ### One token -/

theorem substituteTree_operand {group : List Tree} {i : Nat} {name : String} {placeholder : Placeholder}
    (h : NamesOperand group i name placeholder) :
    substituteTree instruction (Before.other.after (group.take i)) (.ident name) =
      if placeholder.isPresent instruction then .ok (read placeholder)
      else .error (instruction.absent .action name) := by
  have hi : i < group.length := (List.getElem?_eq_some_iff.mp h.token).1
  have hbefore : Before.other.after (group.take i) ≠ .dot := fun hdot =>
    h.free ((Before.after_take_eq_dot_iff (Nat.le_of_lt hi)).mp hdot)
  rw [substituteTree, if_neg hbefore, h.stands]

theorem has_of_substituteTree_operand {group : List Tree} {i : Nat} {name : String} {placeholder : Placeholder}
    (h : NamesOperand group i name placeholder) {tree : Tree}
    (hok : substituteTree instruction (Before.other.after (group.take i)) (.ident name) = .ok tree) :
    instruction.Has placeholder := by
  rw [substituteTree_operand h] at hok
  split at hok
  · next hpresent => exact Placeholder.isPresent_iff.mp hpresent
  · cases hok

theorem substituteTree_name {group : List Tree} {i : Nat} {name : String} (hname : group[i]? = some (.ident name))
    (h : ∀ placeholder, ¬ NamesOperand group i name placeholder) :
    substituteTree instruction (Before.other.after (group.take i)) (.ident name) = .ok (.ident name) := by
  have hi : i < group.length := (List.getElem?_eq_some_iff.mp hname).1
  rw [substituteTree]
  split
  · rfl
  · next hbefore =>
    rw [Before.after_take_eq_dot_iff (Nat.le_of_lt hi)] at hbefore
    cases hstands : Placeholder.ofName? name with
    | none => rfl
    | some placeholder => exact absurd ⟨hname, hbefore, hstands⟩ (h placeholder)

theorem absent_of_substituteTree {group : List Tree} {i : Nat} {name : String} {e : Error}
    (hname : group[i]? = some (.ident name))
    (h : substituteTree instruction (Before.other.after (group.take i)) (.ident name) = .error e) :
    ∃ placeholder, NamesOperand group i name placeholder ∧ ¬ instruction.Has placeholder ∧
      e = instruction.absent .action name := by
  have hi : i < group.length := (List.getElem?_eq_some_iff.mp hname).1
  rw [substituteTree] at h
  split at h
  · cases h
  · next hbefore =>
    rw [Before.after_take_eq_dot_iff (Nat.le_of_lt hi)] at hbefore
    split at h
    · cases h
    · next placeholder hstands =>
      split at h
      · cases h
      · next habsent =>
        rw [Placeholder.isPresent_iff] at habsent
        exact ⟨placeholder, ⟨hname, hbefore, hstands⟩, habsent, (Except.error.inj h).symm⟩

/-- A token that names no operand stays what it is, if only groups are changed inside. -/
theorem alike_of_substituteTree {group : List Tree} {i : Nat} {tree tree' : Tree} (htree : group[i]? = some tree)
    (h : ∀ name placeholder, ¬ NamesOperand group i name placeholder)
    (hok : substituteTree instruction (Before.other.after (group.take i)) tree = .ok tree') : tree.Alike tree' := by
  cases tree with
  | group delimiter inner =>
    rw [substituteTree] at hok
    split at hok
    · next inner' _ => exact ⟨inner', (Except.ok.inj hok).symm⟩
    · cases hok
  | ident name =>
    rw [substituteTree_name htree (h name)] at hok
    exact (Except.ok.inj hok).symm
  | punct char spacing | literal text =>
    rw [substituteTree] at hok
    exact (Except.ok.inj hok).symm

/-! ### The tokens of a group -/

theorem substituteAll_cons_eq_ok_iff {before : Before} {tree : Tree} {rest out : List Tree} :
    substituteAll instruction before (tree :: rest) = .ok out ↔
      ∃ first others, substituteTree instruction before tree = .ok first ∧
        substituteAll instruction (before.next tree) rest = .ok others ∧ out = first :: others := by
  rw [substituteAll]
  cases substituteTree instruction before tree with
  | error e => exact ⟨nofun, nofun⟩
  | ok first =>
    cases substituteAll instruction (before.next tree) rest with
    | error e => exact ⟨nofun, nofun⟩
    | ok others => simp [eq_comm]

theorem length_of_substituteAll {before : Before} {trees out : List Tree}
    (h : substituteAll instruction before trees = .ok out) : out.length = trees.length := by
  induction trees generalizing before out with
  | nil =>
    rw [substituteAll] at h
    cases h
    rfl
  | cons tree rest ih =>
    obtain ⟨first, others, _, hothers, rfl⟩ := substituteAll_cons_eq_ok_iff.mp h
    rw [List.length_cons, List.length_cons, ih hothers]

theorem getElem?_substituteAll {before : Before} {trees out : List Tree}
    (h : substituteAll instruction before trees = .ok out) {i : Nat} {tree : Tree} (htree : trees[i]? = some tree) :
    ∃ tree', out[i]? = some tree' ∧ substituteTree instruction (before.after (trees.take i)) tree = .ok tree' := by
  induction trees generalizing before out i with
  | nil => cases htree
  | cons first rest ih =>
    obtain ⟨first', others, hfirst, hothers, rfl⟩ := substituteAll_cons_eq_ok_iff.mp h
    cases i with
    | zero =>
      obtain rfl : first = tree := Option.some.inj htree
      exact ⟨first', rfl, hfirst⟩
    | succ i => exact ih hothers htree

/-- An error is that of the first token with one. -/
theorem exists_of_substituteAll_eq_error {before : Before} {trees : List Tree} {e : Error}
    (h : substituteAll instruction before trees = .error e) :
    ∃ i tree, trees[i]? = some tree ∧
      substituteTree instruction (before.after (trees.take i)) tree = .error e ∧
      ∀ j earlier, j < i → trees[j]? = some earlier →
        ∃ out, substituteTree instruction (before.after (trees.take j)) earlier = .ok out := by
  induction trees generalizing before with
  | nil =>
    rw [substituteAll] at h
    cases h
  | cons tree rest ih =>
    rw [substituteAll] at h
    split at h
    · next e' herror =>
      cases h
      exact ⟨0, tree, rfl, herror, nofun⟩
    · next first hfirst =>
      split at h
      · next e' herror =>
        cases h
        obtain ⟨i, later, hlater, hfails, hearlier⟩ := ih herror
        refine ⟨i + 1, later, hlater, hfails, fun j earlier hj hget => ?_⟩
        cases j with
        | zero =>
          obtain rfl : tree = earlier := Option.some.inj hget
          exact ⟨first, hfirst⟩
        | succ j => exact hearlier j earlier (Nat.lt_of_succ_lt_succ hj) hget
      · cases h

/-! ### The whole action -/

/-- Substitution goes through the groups: it does in each group what it does to the tokens of the group alone. -/
theorem groupAt?_substitute {trees out group : List Tree} {path : List Nat}
    (h : substitute instruction trees = .ok out) (hgroup : groupAt? trees path = some group) :
    ∃ group', groupAt? out path = some group' ∧ substitute instruction group = .ok group' := by
  induction path generalizing trees out with
  | nil =>
    obtain rfl : trees = group := Option.some.inj hgroup
    exact ⟨out, rfl, h⟩
  | cons i path ih =>
    obtain ⟨delimiter, inner, hi, hinner⟩ := groupAt?_cons_eq_some_iff.mp hgroup
    obtain ⟨tree', hi', htree⟩ := getElem?_substituteAll h hi
    rw [substituteTree] at htree
    split at htree
    · next inner' hinner' =>
      cases htree
      obtain ⟨group', hgroup', hsubstitute⟩ := ih hinner' hinner
      exact ⟨group', groupAt?_cons_eq_some_iff.mpr ⟨delimiter, inner', hi', hgroup'⟩, hsubstitute⟩
    · cases htree

theorem has_of_substitute {trees out : List Tree} (h : substitute instruction trees = .ok out) {path : List Nat}
    {i : Nat} {name : String} {placeholder : Placeholder} (hat : OperandAt trees path i name placeholder) :
    instruction.Has placeholder := by
  obtain ⟨group, hgroup, hnames⟩ := hat
  obtain ⟨group', _, hsubstitute⟩ := groupAt?_substitute h hgroup
  obtain ⟨tree', _, htree⟩ := getElem?_substituteAll hsubstitute hnames.token
  exact has_of_substituteTree_operand hnames htree

/-- An action after substitution: the names of operands are replaced by reads of the decoded instruction, and all other
tokens are the same. -/
def Replaced (trees out : List Tree) : Prop :=
  ∀ path group, groupAt? trees path = some group → ∃ group', groupAt? out path = some group' ∧
    group'.length = group.length ∧ ∀ i tree, group[i]? = some tree → ∃ tree', group'[i]? = some tree' ∧
      (∀ name placeholder, NamesOperand group i name placeholder →
        tree' = .group .paren [.ident "insn", .punct '.' .alone, .ident placeholder.field]) ∧
      ((∀ name placeholder, ¬ NamesOperand group i name placeholder) → tree.Alike tree')

theorem replaced_of_substitute {trees out : List Tree} (h : substitute instruction trees = .ok out) :
    Replaced trees out := by
  intro path group hgroup
  obtain ⟨group', hgroup', hsubstitute⟩ := groupAt?_substitute h hgroup
  refine ⟨group', hgroup', length_of_substituteAll hsubstitute, fun i tree htree => ?_⟩
  obtain ⟨tree', htree', hok⟩ := getElem?_substituteAll hsubstitute htree
  refine ⟨tree', htree', fun name placeholder hnames => ?_, fun hnone => alike_of_substituteTree htree hnone hok⟩
  obtain rfl : tree = .ident name := Option.some.inj (htree.symm.trans hnames.token)
  rw [substituteTree_operand hnames] at hok
  split at hok
  · exact (Except.ok.inj hok).symm
  · cases hok

/-! ### The first error -/

theorem operandAt_cons_iff {trees : List Tree} {k : Nat} {path : List Nat} {i : Nat} {name : String}
    {placeholder : Placeholder} : OperandAt trees (k :: path) i name placeholder ↔
      ∃ delimiter inner, trees[k]? = some (.group delimiter inner) ∧ OperandAt inner path i name placeholder := by
  simp only [OperandAt, groupAt?_cons_eq_some_iff]
  constructor
  · rintro ⟨group, ⟨delimiter, inner, hk, hgroup⟩, hnames⟩
    exact ⟨delimiter, inner, hk, group, hgroup, hnames⟩
  · rintro ⟨delimiter, inner, hk, group, hgroup, hnames⟩
    exact ⟨group, ⟨delimiter, inner, hk, hgroup⟩, hnames⟩

theorem operandAt_nil_iff {trees : List Tree} {i : Nat} {name : String} {placeholder : Placeholder} :
    OperandAt trees [] i name placeholder ↔ NamesOperand trees i name placeholder := by
  constructor
  · rintro ⟨_, ⟨⟩, hnames⟩
    exact hnames
  · intro hnames
    exact ⟨trees, rfl, hnames⟩

/-- No operand is absent at or inside of a token that was substituted. -/
theorem has_of_substituteTree {trees : List Tree} {k : Nat}
    (hk : ∀ tree, trees[k]? = some tree →
      ∃ out, substituteTree instruction (Before.other.after (trees.take k)) tree = .ok out)
    {path : List Nat} {i : Nat} (hhead : (path ++ [i]).head? = some k) {name : String} {placeholder : Placeholder}
    (hat : OperandAt trees path i name placeholder) : instruction.Has placeholder := by
  cases path with
  | nil =>
    obtain rfl : i = k := Option.some.inj hhead
    have hnames := operandAt_nil_iff.mp hat
    obtain ⟨out, hout⟩ := hk _ hnames.token
    exact has_of_substituteTree_operand hnames hout
  | cons j path =>
    obtain rfl : j = k := Option.some.inj hhead
    obtain ⟨delimiter, inner, hj, hinner⟩ := operandAt_cons_iff.mp hat
    obtain ⟨out, hout⟩ := hk _ hj
    rw [substituteTree] at hout
    split at hout
    · next inner' hinner' => exact has_of_substitute hinner' hinner
    · cases hout

/-- The place is the first that holds the name of an operand that the instruction does not have. Places are ordered as the
tokens are written, from left to right and a group before what is inside of it. -/
structure FirstAbsent (instruction : Instruction) (trees : List Tree) (path : List Nat) (i : Nat) (name : String) :
    Prop where
  absent : ∃ placeholder, OperandAt trees path i name placeholder ∧ ¬ instruction.Has placeholder
  first : ∀ path' i' name' placeholder', path' ++ [i'] < path ++ [i] → OperandAt trees path' i' name' placeholder' →
    instruction.Has placeholder'

theorem exists_place_eq (path : List Nat) (i : Nat) : ∃ j others, path ++ [i] = j :: others :=
  List.exists_cons_of_ne_nil (List.append_ne_nil_of_right_ne_nil _ (List.cons_ne_nil _ _))

/-- Tokens before the first one with an error, and what is inside of them, have no absent operand. -/
theorem has_of_lt {trees : List Tree} {k : Nat}
    (hearlier : ∀ j tree, j < k → trees[j]? = some tree →
      ∃ out, substituteTree instruction (Before.other.after (trees.take j)) tree = .ok out)
    {path : List Nat} {i : Nat} {rest : List Nat} (hlt : path ++ [i] < k :: rest)
    (hhead : (path ++ [i]).head? ≠ some k) {name : String} {placeholder : Placeholder}
    (hat : OperandAt trees path i name placeholder) : instruction.Has placeholder := by
  obtain ⟨j, others, hplace⟩ := exists_place_eq path i
  rw [hplace] at hlt hhead
  have hj : j < k := (List.cons_lt_cons_iff.mp hlt).resolve_right fun ⟨heq, _⟩ => hhead (congrArg some heq)
  refine has_of_substituteTree (fun tree => hearlier j tree hj) ?_ hat
  rw [hplace]
  rfl

theorem exists_firstAbsent {trees : List Tree} {e : Error} (h : substitute instruction trees = .error e) :
    ∃ path i name, FirstAbsent instruction trees path i name ∧ e = instruction.absent .action name := by
  obtain ⟨k, tree, htree, herror, hearlier⟩ := exists_of_substituteAll_eq_error h
  match tree with
  | .group delimiter inner =>
    have hinner : substitute instruction inner = .error e := by
      rw [substituteTree] at herror
      split at herror
      · cases herror
      · next e' hinner => rwa [Except.error.inj herror] at hinner
    obtain ⟨path, i, name, ⟨⟨placeholder, hat, habsent⟩, hfirst⟩, rfl⟩ := exists_firstAbsent hinner
    refine ⟨k :: path, i, name, ⟨⟨placeholder, ?_, habsent⟩, fun path' i' name' placeholder' hlt hat' => ?_⟩, rfl⟩
    · exact operandAt_cons_iff.mpr ⟨delimiter, inner, htree, hat⟩
    · by_cases hhead : (path' ++ [i']).head? = some k
      · -- the place is the group itself, which is no name, or it is inside of the group
        cases path' with
        | nil =>
          obtain rfl : i' = k := Option.some.inj hhead
          have htoken := (operandAt_nil_iff.mp hat').token
          cases htree.symm.trans htoken
        | cons k' path' =>
          obtain rfl : k' = k := Option.some.inj hhead
          obtain ⟨_, _, htree', hinner'⟩ := operandAt_cons_iff.mp hat'
          cases htree.symm.trans htree'
          have hlt' : path' ++ [i'] < path ++ [i] := by
            rcases List.cons_lt_cons_iff.mp hlt with hk | ⟨_, hlt'⟩
            · exact absurd hk (Nat.lt_irrefl _)
            · exact hlt'
          exact hfirst path' i' name' placeholder' hlt' hinner'
      · exact has_of_lt hearlier hlt hhead hat'
  | .ident name =>
    obtain ⟨placeholder, hnames, habsent, rfl⟩ := absent_of_substituteTree htree herror
    refine ⟨[], k, name, ⟨⟨placeholder, operandAt_nil_iff.mpr hnames, habsent⟩, ?_⟩, rfl⟩
    intro path' i' name' placeholder' hlt hat'
    refine has_of_lt hearlier hlt (fun hhead => ?_) hat'
    obtain ⟨j, others, hplace⟩ := exists_place_eq path' i'
    rw [hplace] at hlt hhead
    obtain rfl : j = k := Option.some.inj hhead
    rcases List.cons_lt_cons_iff.mp hlt with hk | ⟨_, hnil⟩
    · exact absurd hk (Nat.lt_irrefl _)
    · exact absurd hnil (List.not_lt_nil _)
  | .punct char spacing | .literal text =>
    rw [substituteTree] at herror
    cases herror
termination_by sizeOf trees
decreasing_by
  have hmem := List.sizeOf_lt_of_mem (List.mem_of_getElem? htree)
  rw [Tree.group.sizeOf_spec] at hmem
  omega

/-! ### A second run -/

theorem next_of_substituteTree {before : Before} {tree tree' : Tree}
    (h : substituteTree instruction before tree = .ok tree') (earlier : Before) :
    earlier.next tree' = earlier.next tree := by
  cases tree with
  | group delimiter inner =>
    rw [substituteTree] at h
    split at h
    · cases h
      rfl
    · cases h
  | ident name =>
    rw [substituteTree] at h
    split at h
    · cases h
      rfl
    · split at h
      · cases h
        rfl
      · split at h
        · cases h
          rfl
        · cases h
  | punct char spacing | literal text =>
    rw [substituteTree] at h
    cases h
    rfl

/-- The field of a read comes after a single dot, so that it is left alone. -/
theorem substituteTree_read (before : Before) (placeholder : Placeholder) :
    substituteTree instruction before (read placeholder) = .ok (read placeholder) := by
  simp [read, substituteTree, substituteAll, Before.next, Placeholder.ofName?]

mutual

theorem substituteTree_again {before : Before} {tree tree' : Tree}
    (h : substituteTree instruction before tree = .ok tree') :
    substituteTree instruction before tree' = .ok tree' := by
  cases tree with
  | group delimiter inner =>
    rw [substituteTree] at h
    split at h
    · next inner' hinner =>
      cases h
      rw [substituteTree, substituteAll_again hinner]
    · cases h
  | ident name =>
    have hname := h
    rw [substituteTree] at h
    split at h
    · cases h
      exact hname
    · split at h
      · cases h
        exact hname
      · split at h
        · cases h
          exact substituteTree_read before _
        · cases h
  | punct char spacing | literal text =>
    rw [substituteTree] at h
    cases h
    rw [substituteTree]

theorem substituteAll_again {before : Before} {trees out : List Tree}
    (h : substituteAll instruction before trees = .ok out) : substituteAll instruction before out = .ok out := by
  cases trees with
  | nil =>
    rw [substituteAll] at h
    cases h
    rw [substituteAll]
  | cons tree rest =>
    obtain ⟨first, others, hfirst, hothers, rfl⟩ := substituteAll_cons_eq_ok_iff.mp h
    refine substituteAll_cons_eq_ok_iff.mpr ⟨first, others, substituteTree_again hfirst, ?_, rfl⟩
    rw [next_of_substituteTree hfirst]
    exact substituteAll_again hothers

end

/-- Substitution succeeds exactly if the instruction has every operand that is named, at any depth. The names of operands are
then replaced by reads of the decoded instruction and nothing else is changed, so that a second run changes nothing. An
error is about the first name of an operand that is not there. -/
theorem substitute_operands (instruction : Instruction) (trees : List Tree) :
    ((∃ out, substitute instruction trees = .ok out) ↔
      ∀ path i name placeholder, OperandAt trees path i name placeholder → instruction.Has placeholder) ∧
    (∀ out, substitute instruction trees = .ok out → Replaced trees out ∧ substitute instruction out = .ok out) ∧
    ∀ e, substitute instruction trees = .error e → ∃ path i name, FirstAbsent instruction trees path i name ∧
      e = .unknownPlaceholder instruction.line instruction.opcode .action name := by
  refine ⟨⟨?_, fun hall => ?_⟩, fun out h => ⟨replaced_of_substitute h, substituteAll_again h⟩,
    fun e h => exists_firstAbsent h⟩
  · rintro ⟨out, h⟩ path i name placeholder hat
    exact has_of_substitute h hat
  · cases h : substitute instruction trees with
    | ok out => exact ⟨out, rfl⟩
    | error e =>
      obtain ⟨path, i, name, ⟨⟨placeholder, hat, habsent⟩, _⟩, _⟩ := exists_firstAbsent h
      exact absurd (hall path i name placeholder hat) habsent

/-- An instruction with a destination and no other operand. -/
def probeInstruction : Instruction where
  opcode := "probe"
  line := 7
  provenance := {}
  assembly := "rd"
  attributes := []
  tokens := {}
  matchValue := 0x000b
  mask := 0x707f
  width := .standard
  slots := ⟨.field .generalPurpose ⟨11, 7⟩ 0, .none, .none, .none⟩
  immediate := none
  action := "state.rd = (0..rd)"

/-- The range up to an operand is assigned to a member with the name of the destination. -/
def rangeTo (name : String) : List Tree :=
  [.ident "state", .punct '.' .alone, .ident "rd", .punct '=' .alone,
    .group .paren [.literal "0", .punct '.' .joint, .punct '.' .alone, .ident name]]

theorem substitute_operands_rangeTo :
    (∃ out, substitute probeInstruction (rangeTo "rd") = .ok out ∧ Replaced (rangeTo "rd") out ∧
      substitute probeInstruction out = .ok out) ∧
    ∃ path i name, FirstAbsent probeInstruction (rangeTo "rs2") path i name ∧ name = "rs2" := by
  constructor
  · have hout : ∃ out, substitute probeInstruction (rangeTo "rd") = .ok out := ⟨_, rfl⟩
    obtain ⟨out, hout⟩ := hout
    exact ⟨out, hout, (substitute_operands probeInstruction (rangeTo "rd")).2.1 out hout⟩
  · have herror : substitute probeInstruction (rangeTo "rs2") =
        .error (.unknownPlaceholder 7 "probe" .action "rs2") := rfl
    obtain ⟨path, i, name, hfirst, he⟩ := (substitute_operands probeInstruction (rangeTo "rs2")).2.2 _ herror
    cases he
    exact ⟨path, i, "rs2", hfirst, rfl⟩

end Action

end IsaForge
