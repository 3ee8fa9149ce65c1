import IsaForge.FileTree
import IsaForge.Proofs.Digits
import Mathlib.Data.List.Basic
import Mathlib.Data.List.Nodup
import Mathlib.Data.List.Perm.Subperm

/-!
What writing does to a tree. `FileTree.fileAt?` is where the file of a path is or would be; reading and
`FileTree.writeVia` are described by it (`read_eq_ok_iff`, `writeVia_of_fileAt?`, `writeVia_of_fileAt?_eq_none`). A write
touches no directory, so that paths lead to the same places after it (`SameDirectories.fileAt?_eq`), and in particular
while its temporary file is there. `FileTree.writeIfChanged` is such a write, since its temporary file has a name of its
own (`isUnused_unusedName`).
-/

namespace IsaForge.FileTree

variable {tree tree' : FileTree} {path : String} {location : Location} {contents : ByteArray}

/-! ### Nodes -/

theorem node?_of_not_isEnclosing (h : location.isEnclosing = false) :
    tree.node? location = tree.nodes.lookup location := by
  rw [node?, h]
  rfl

theorem isEnclosing_of_node?_ne (h : tree.node? location ≠ some .directory) :
    location.isEnclosing = false := by
  rw [node?] at h
  split at h
  · exact absurd rfl h
  · next hnot => exact Bool.eq_false_iff.mpr hnot

theorem lookup_erase {other : Location} (h : other ≠ location) :
    (tree.erase location).nodes.lookup other = tree.nodes.lookup other := by
  rw [erase]
  induction tree.nodes with
  | nil => rfl
  | cons entry nodes ih =>
    obtain ⟨place, node⟩ := entry
    by_cases hplace : place = location
    · have hother : (other == place) = false := beq_false_of_ne (hplace ▸ h)
      rw [List.filter_cons_of_neg (by simp [hplace]), List.lookup_cons, hother, ih]
    · rw [List.filter_cons_of_pos (by simp [hplace]), List.lookup_cons, List.lookup_cons, ih]

/-- Storing at a place that encloses nothing changes what is there, and nothing else. -/
theorem node?_store (h : location.isEnclosing = false) (node : Node) (other : Location) :
    (tree.store location node).node? other = if other = location then some node else tree.node? other := by
  split
  · next hother =>
    rw [hother, node?_of_not_isEnclosing h]
    exact List.lookup_cons_self
  · next hother =>
    have hlookup : (tree.store location node).nodes.lookup other = tree.nodes.lookup other := by
      rw [store, List.lookup_cons, beq_false_of_ne hother]
      exact lookup_erase hother
    rw [node?, node?, hlookup]

/-! ### The file of a path -/

/-- Where the file of a path is or would be: at the name at its end, if no slash follows and no directory is there. -/
def fileAt? (tree : FileTree) (path : String) : Option Location :=
  match tree.target path with
  | .ok (.entry parent name false) =>
    if tree.node? (name :: parent) = some .directory then none else some (name :: parent)
  | _ => none

theorem fileAt?_of_entry {parent : Location} {name : String}
    (h : tree.target path = .ok (.entry parent name false)) :
    tree.fileAt? path = if tree.node? (name :: parent) = some .directory then none else some (name :: parent) := by
  rw [fileAt?, h]

theorem fileAt?_eq_some_iff : tree.fileAt? path = some location ↔
    tree.node? location ≠ some .directory ∧
      ∃ parent name, tree.target path = .ok (.entry parent name false) ∧ location = name :: parent := by
  constructor
  · intro h
    rw [fileAt?] at h
    split at h
    · next parent name htarget =>
      split at h
      · cases h
      · next hnode =>
        cases h
        exact ⟨hnode, parent, name, htarget, rfl⟩
    · cases h
  · rintro ⟨hnode, parent, name, htarget, rfl⟩
    rw [fileAt?_of_entry htarget, if_neg hnode]

theorem read_of_fileAt? (h : tree.fileAt? path = some location) :
    tree.read path = match tree.node? location with
      | some (.file contents) => .ok contents
      | _ => .error .notFound := by
  obtain ⟨hnode, parent, name, htarget, rfl⟩ := fileAt?_eq_some_iff.mp h
  rw [read, htarget]
  dsimp only
  cases hfound : tree.node? (name :: parent) with
  | none => rfl
  | some node =>
    cases node with
    | file contents => rfl
    | directory => exact absurd hfound hnode

/-- Without a place for its file, a path is not read. -/
theorem read_of_fileAt?_eq_none (h : tree.fileAt? path = none) : ∃ e, tree.read path = .error e := by
  rw [fileAt?] at h
  rw [read]
  cases htarget : tree.target path with
  | error e => exact ⟨e, rfl⟩
  | ok target =>
    cases target with
    | directory inner => exact ⟨_, rfl⟩
    | entry parent name slash =>
      rw [htarget] at h
      dsimp only
      cases hnode : tree.node? (name :: parent) with
      | none => exact ⟨_, rfl⟩
      | some node =>
        cases node with
        | directory => exact ⟨_, rfl⟩
        | file contents =>
          cases slash with
          | true => exact ⟨_, rfl⟩
          | false => simp [hnode] at h

theorem read_eq_ok_iff : tree.read path = .ok contents ↔
    ∃ location, tree.fileAt? path = some location ∧ tree.node? location = some (.file contents) := by
  constructor
  · intro h
    cases hfile : tree.fileAt? path with
    | none =>
      obtain ⟨e, he⟩ := read_of_fileAt?_eq_none hfile
      rw [he] at h
      cases h
    | some location =>
      rw [read_of_fileAt? hfile] at h
      split at h
      · next found hnode =>
        cases h
        exact ⟨location, rfl, hnode⟩
      · cases h
  · rintro ⟨location, hfile, hnode⟩
    rw [read_of_fileAt? hfile, hnode]

/-! ### Directories -/

/-- Two trees with the same directories. -/
def SameDirectories (tree tree' : FileTree) : Prop :=
  ∀ location, tree.node? location = some .directory ↔ tree'.node? location = some .directory

namespace SameDirectories

theorem symm (h : SameDirectories tree tree') : SameDirectories tree' tree :=
  fun location => (h location).symm

/-- Steps that lead somewhere lead to the same place in a tree with the same directories. The way in which they can
fail may differ. -/
theorem follow_ok (h : SameDirectories tree tree') {steps : List String} {start stop : Location}
    (hfollow : tree.follow start steps = .ok stop) : tree'.follow start steps = .ok stop := by
  induction steps generalizing start with
  | nil => exact hfollow
  | cons step rest ih =>
    rw [follow] at hfollow ⊢
    split at hfollow
    · next hstep =>
      rw [if_pos hstep]
      exact ih hfollow
    · next hstep =>
      rw [if_neg hstep]
      split at hfollow
      · next hstep' =>
        rw [if_pos hstep']
        exact ih hfollow
      · next hstep' =>
        rw [if_neg hstep']
        split at hfollow
        · cases hfollow
        · next hlong =>
          rw [if_neg hlong]
          split at hfollow
          · cases hfollow
          · cases hfollow
          · next hnode =>
            rw [(h _).mp hnode]
            exact ih hfollow

theorem target_ok (h : SameDirectories tree tree') {target : Target} (htarget : tree.target path = .ok target) :
    tree'.target path = .ok target := by
  unfold FileTree.target at htarget ⊢
  split at htarget
  · cases htarget
  · split at htarget
    · exact htarget
    · split at htarget
      · cases htarget
      · next parent hparent =>
        rw [h.follow_ok hparent]
        exact htarget

/-- Paths lead to the same places. -/
theorem fileAt?_eq (h : SameDirectories tree tree') (path : String) : tree'.fileAt? path = tree.fileAt? path := by
  refine Option.ext fun location => ?_
  rw [fileAt?_eq_some_iff, fileAt?_eq_some_iff]
  refine and_congr (not_congr (h location).symm) ?_
  exact exists_congr fun _ => exists_congr fun _ => and_congr ⟨h.symm.target_ok, h.target_ok⟩ Iff.rfl

end SameDirectories

/-- A new file is no directory. -/
theorem sameDirectories_store (h : tree.node? location ≠ some .directory) (contents : ByteArray) :
    tree.SameDirectories (tree.store location (.file contents)) := by
  intro other
  rw [node?_store (isEnclosing_of_node?_ne h)]
  split
  · next hother =>
    rw [hother]
    exact ⟨fun hnode => absurd hnode h, nofun⟩
  · exact Iff.rfl

/-! ### Temporary files -/

/-- Taking a new node away again leaves the tree as it was. -/
theorem erase_store (h : tree.node? location = none) (node : Node) :
    (tree.store location node).erase location = tree := by
  have hdirectory : tree.node? location ≠ some .directory := by simp [h]
  have hother : ∀ entry ∈ tree.nodes, (entry.1 != location) = true := by
    intro entry hentry
    rw [node?_of_not_isEnclosing (isEnclosing_of_node?_ne hdirectory), List.lookup_eq_none_iff] at h
    rw [bne_comm]
    exact h entry hentry
  have hself : tree.erase location = tree := by
    rw [erase, List.filter_eq_self.mpr hother]
  rw [store, erase, List.filter_cons_of_neg (by simp), hself]
  exact hself

theorem createNew_eq_ok_iff : tree.createNew location contents = .ok tree' ↔
    tree.node? location = none ∧ tree' = tree.store location (.file contents) := by
  rw [createNew]
  cases tree.node? location with
  | none => simp [eq_comm]
  | some node => simp

/-- A file can be moved to a path that has a place for a file. -/
theorem moveFile_eq_ok_iff {source : Location} : tree.moveFile source path = .ok tree' ↔
    ∃ location contents, tree.fileAt? path = some location ∧ tree.node? source = some (.file contents) ∧
      tree' = (tree.erase source).store location (.file contents) := by
  rw [moveFile, fileAt?]
  cases tree.target path with
  | error e => simp
  | ok target =>
    cases target with
    | directory inner => simp
    | entry parent name slash =>
      cases hsource : tree.node? source with
      | none => simp
      | some node =>
        cases node with
        | directory => simp
        | file contents =>
          cases slash with
          | true => simp
          | false =>
            by_cases hnode : tree.node? (name :: parent) = some .directory
            · simp [hnode]
            · simp [hnode, eq_comm]

/-- What a replacement that succeeds does to the tree. The temporary file is gone, as it was moved. -/
theorem of_replaceVia_eq_ok {temporary : String} {changed : Bool}
    (h : tree.replaceVia temporary path contents = (.ok changed, tree')) :
    changed = true ∧ ∃ location, tree.fileAt? path = some location ∧ tree' = tree.store location (.file contents) := by
  rw [replaceVia] at h
  split at h
  · cases h
  · next directory _ =>
    split at h
    · cases h
    · next staged hstaged =>
      obtain ⟨hnew, rfl⟩ := createNew_eq_ok_iff.mp hstaged
      split at h
      · cases h
      · next moved hmoved =>
        cases h
        obtain ⟨location, found, hplace, hfound, hmoved⟩ := moveFile_eq_ok_iff.mp hmoved
        have hdirectory : tree.node? (temporary :: directory) ≠ some .directory := by simp [hnew]
        rw [node?_store (isEnclosing_of_node?_ne hdirectory), if_pos rfl] at hfound
        rw [(sameDirectories_store hdirectory contents).fileAt?_eq] at hplace
        rw [erase_store hnew] at hmoved
        cases hfound
        exact ⟨rfl, location, hplace, hmoved⟩

/-- A replacement that fails takes its temporary file away. -/
theorem of_replaceVia_eq_error {temporary : String} {e : FileError}
    (h : tree.replaceVia temporary path contents = (.error e, tree')) : tree' = tree := by
  rw [replaceVia] at h
  split at h
  · cases h
    rfl
  · split at h
    · cases h
      rfl
    · next staged hstaged =>
      obtain ⟨hnew, rfl⟩ := createNew_eq_ok_iff.mp hstaged
      split at h
      · cases h
        exact erase_store hnew _
      · cases h

/-- Nothing beside a path has the name of the temporary file. -/
def IsUnused (tree : FileTree) (temporary path : String) : Prop :=
  ∀ directory, tree.parent path = .ok directory → tree.node? (temporary :: directory) = none

theorem parent_of_entry {directory : Location} {name : String} {slash : Bool}
    (h : tree.target path = .ok (.entry directory name slash)) : tree.parent path = .ok directory := by
  unfold target at h
  split at h
  · cases h
  · split at h
    · cases h
    · next last hlast =>
      split at h
      · cases h
      · next outer houter =>
        split at h
        · cases h
        · next hdot =>
          -- the last step is a name, so that no dots are left out at the end
          obtain ⟨before, hsteps⟩ := List.getLast?_eq_some_iff.mp hlast
          have hnamed : ((steps path).reverse.dropWhile (· == ".")).reverse = steps path := by
            rw [hsteps, List.reverse_append, List.reverse_singleton, List.singleton_append,
              List.dropWhile_cons_of_neg (by simpa using hdot)]
            simp
          rw [parent, hnamed, houter]
          split at h
          · cases h
          · split at h <;> cases h
            rfl

/-- A path that has a place for its file is written, if the name of the temporary file is new. -/
theorem replaceVia_of_fileAt? {temporary : String} (h : tree.fileAt? path = some location)
    (hunused : tree.IsUnused temporary path) (contents : ByteArray) :
    tree.replaceVia temporary path contents = (.ok true, tree.store location (.file contents)) := by
  obtain ⟨_, directory, name, htarget, rfl⟩ := fileAt?_eq_some_iff.mp h
  have hparent := parent_of_entry htarget
  have hnew := hunused directory hparent
  have hdirectory : tree.node? (temporary :: directory) ≠ some .directory := by simp [hnew]
  have hmoved := moveFile_eq_ok_iff.mpr ⟨name :: directory, contents,
    ((sameDirectories_store hdirectory contents).fileAt?_eq path).trans h,
    (node?_store (isEnclosing_of_node?_ne hdirectory) _ _).trans (if_pos rfl), rfl⟩
  rw [erase_store hnew] at hmoved
  rw [replaceVia, hparent]
  dsimp only
  rw [createNew_eq_ok_iff.mpr ⟨hnew, rfl⟩]
  dsimp only
  rw [hmoved]

/-! ### Writing -/

/-- A path that has a place for its file is written, unless the contents are there already. -/
theorem writeVia_of_fileAt? {temporary : String} (h : tree.fileAt? path = some location)
    (hunused : tree.IsUnused temporary path) (contents : ByteArray) :
    tree.writeVia temporary path contents =
      if tree.node? location = some (.file contents) then (.ok false, tree)
      else (.ok true, tree.store location (.file contents)) := by
  rw [writeVia, read_of_fileAt? h, replaceVia_of_fileAt? h hunused]
  have hnode := (fileAt?_eq_some_iff.mp h).1
  cases hfound : tree.node? location with
  | none => rfl
  | some node =>
    cases node with
    | directory => exact absurd hfound hnode
    | file existing => simp only [Option.some.injEq, Node.file.injEq]

/-- A path that has none is not written, and the tree stays as it is. -/
theorem writeVia_of_fileAt?_eq_none (h : tree.fileAt? path = none) (temporary : String) (contents : ByteArray) :
    ∃ e, tree.writeVia temporary path contents = (.error e, tree) := by
  obtain ⟨e, hread⟩ := read_of_fileAt?_eq_none h
  rw [writeVia, hread]
  cases e with
  | notFound =>
    cases hreplace : tree.replaceVia temporary path contents with
    | mk result tree' =>
      cases result with
      | ok changed =>
        obtain ⟨_, location, hplace, _⟩ := of_replaceVia_eq_ok hreplace
        rw [h] at hplace
        cases hplace
      | error e' =>
        obtain rfl := of_replaceVia_eq_error hreplace
        exact ⟨e', rfl⟩
  | _ => exact ⟨_, rfl⟩

theorem temporaryName_injective {m n : Nat} (h : temporaryName m = temporaryName n) : m = n := by
  have hdigits : Nat.toDigits 10 m = Nat.toDigits 10 n := by
    simpa [temporaryName, Text.decimal, ← String.toList_inj] using h
  exact Text.toDigits_ten_injective hdigits

theorem temporaryName_ne (n : Nat) : temporaryName n ≠ ".." ∧ temporaryName n ≠ "/" := by
  simp [temporaryName, ← String.toList_inj]

/-- There are more names of temporary files than names in use, so that one of them is always left. -/
theorem unusedName_notMem (used : List String) : unusedName used ∉ used := by
  unfold unusedName
  cases hfind : (List.range used.length).find? fun n => !used.contains (temporaryName n) with
  | some n =>
    have hunused := List.find?_some hfind
    simpa using hunused
  | none =>
    intro hmem
    have hnames : (List.range (used.length + 1)).map temporaryName ⊆ used := by
      intro name hname
      obtain ⟨n, hn, rfl⟩ := List.mem_map.mp hname
      rcases Nat.lt_succ_iff_lt_or_eq.mp (List.mem_range.mp hn) with hn | rfl
      · simpa using List.find?_eq_none.mp hfind n (List.mem_range.mpr hn)
      · exact hmem
    have hnodup := List.Nodup.map (fun _ _ => temporaryName_injective) (List.nodup_range (n := used.length + 1))
    have hlength := (List.subperm_of_subset hnodup hnames).length_le
    rw [List.length_map, List.length_range] at hlength
    omega

theorem isUnused_unusedName {used : List String} (h : tree.nodes.filterMap (·.1.head?) ⊆ used) (path : String) :
    tree.IsUnused (unusedName used) path := by
  intro directory _
  have henclosing : Location.isEnclosing (unusedName used :: directory) = false := by
    have hne : unusedName used ≠ ".." ∧ unusedName used ≠ "/" := temporaryName_ne _
    simp [Location.isEnclosing, Location.root, hne]
  rw [node?_of_not_isEnclosing henclosing, List.lookup_eq_none_iff]
  intro entry hentry
  refine bne_iff_ne.mpr fun heq => unusedName_notMem used (h ?_)
  exact List.mem_filterMap.mpr ⟨entry, hentry, by rw [← heq]; rfl⟩

theorem writeIfChanged_of_fileAt? (h : tree.fileAt? path = some location) (contents : ByteArray) :
    tree.writeIfChanged path contents =
      if tree.node? location = some (.file contents) then (.ok false, tree)
      else (.ok true, tree.store location (.file contents)) :=
  writeVia_of_fileAt? h (isUnused_unusedName (List.subset_append_left _ _) path) contents

theorem writeIfChanged_of_fileAt?_eq_none (h : tree.fileAt? path = none) (contents : ByteArray) :
    ∃ e, tree.writeIfChanged path contents = (.error e, tree) :=
  writeVia_of_fileAt?_eq_none h _ contents

theorem fileAt?_eq_none_of_error {e : FileError} (h : tree.writeIfChanged path contents = (.error e, tree')) :
    tree.fileAt? path = none ∧ tree' = tree := by
  cases hplace : tree.fileAt? path with
  | none =>
    obtain ⟨e', he'⟩ := writeIfChanged_of_fileAt?_eq_none hplace contents
    rw [he'] at h
    cases h
    exact ⟨rfl, rfl⟩
  | some place =>
    rw [writeIfChanged_of_fileAt? hplace] at h
    split at h <;> cases h

end IsaForge.FileTree
