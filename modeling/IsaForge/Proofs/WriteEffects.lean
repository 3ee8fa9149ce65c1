import IsaForge.Proofs.StoredFiles

/-!
What a write comes to, whatever name its temporary file gets; `FileTree.writeIfChanged` chooses one that is new
(`Write.exists_run_eq`). `Write.run_cases` says once what a write can do. Its effect on the tree (`Write.effect`) and the
result of the same write made again (`Write.run_again`) follow from it, for a write alone and for one in a row of writes.
-/

namespace IsaForge.FileTree

/-- A write to be made, with the name that its temporary file gets. -/
structure Write where
  temporary : String
  path : String
  contents : ByteArray

namespace Write

def run (write : Write) (tree : FileTree) : Except FileError Bool × FileTree :=
  tree.writeVia write.temporary write.path write.contents

/-- The results of writes that are made one after the other, and the tree that they leave. -/
def runAll : List Write → FileTree → List (Except FileError Bool) × FileTree
  | [], tree => ([], tree)
  | write :: rest, tree =>
    let (result, next) := write.run tree
    let (results, last) := runAll rest next
    (result :: results, last)

variable {write : Write} {tree tree' : FileTree}

/-! ### One write -/

/-- The three ways in which a write ends. -/
theorem run_cases {result : Except FileError Bool} (h : write.run tree = (result, tree')) :
    (result = .ok false ∧ tree.read write.path = .ok write.contents ∧ tree' = tree) ∨
    (result = .ok true ∧ tree.read write.path ≠ .ok write.contents ∧ ∃ location,
      tree.fileAt? write.path = some location ∧ tree' = tree.store location (.file write.contents)) ∨
    ∃ e, result = .error e ∧ tree.read write.path ≠ .ok write.contents ∧ tree' = tree := by
  -- what is left to do if the contents are not there
  have hreplace (hread : tree.read write.path ≠ .ok write.contents)
      (h : tree.replaceVia write.temporary write.path write.contents = (result, tree')) :
      (result = .ok true ∧ tree.read write.path ≠ .ok write.contents ∧ ∃ location,
        tree.fileAt? write.path = some location ∧ tree' = tree.store location (.file write.contents)) ∨
      ∃ e, result = .error e ∧ tree.read write.path ≠ .ok write.contents ∧ tree' = tree := by
    cases result with
    | ok changed =>
      obtain ⟨rfl, hstored⟩ := of_replaceVia_eq_ok h
      exact .inl ⟨rfl, hread, hstored⟩
    | error e => exact .inr ⟨e, rfl, hread, of_replaceVia_eq_error h⟩
  unfold run writeVia at h
  cases hread : tree.read write.path with
  | ok existing =>
    rw [hread] at h hreplace
    dsimp only at h
    split at h
    · next heq =>
      cases h
      exact .inl ⟨rfl, by rw [heq], rfl⟩
    · next hne => exact .inr (hreplace (by simpa using hne) h)
  | error e =>
    rw [hread] at h hreplace
    cases e with
    | notFound => exact .inr (hreplace nofun h)
    | _ =>
      cases h
      exact .inr (.inr ⟨_, rfl, nofun, rfl⟩)

/-- What a write comes to: its result, and the tree that it leaves. -/
structure Effect (write : Write) (tree : FileTree) (result : Except FileError Bool) (tree' : FileTree) : Prop where
  unchanged_iff : result = .ok false ↔
    ∃ location, tree.fileAt? write.path = some location ∧ tree.node? location = some (.file write.contents)
  unchanged : result = .ok false → tree' = tree
  written : result = .ok true → tree'.read write.path = .ok write.contents ∧
    ∃ location, tree.fileAt? write.path = some location ∧ tree'.erase location = tree.erase location ∧
      ∀ other, other ≠ location → tree'.node? other = tree.node? other
  failed : ∀ e, result = .error e → tree' = tree
  /-- If the name of the temporary file is new, then only the path can be at fault. -/
  failed_iff : tree.IsUnused write.temporary write.path →
    ((∃ e, result = .error e) ↔ tree.fileAt? write.path = none)

theorem read_store {location : Location} {path : String} (h : tree.fileAt? path = some location)
    (contents : ByteArray) : (tree.store location (.file contents)).read path = .ok contents := by
  have hnode := (fileAt?_eq_some_iff.mp h).1
  refine read_eq_ok_iff.mpr ⟨location, ?_, ?_⟩
  · rw [(sameDirectories_store hnode contents).fileAt?_eq, h]
  · rw [node?_store (isEnclosing_of_node?_ne hnode), if_pos rfl]

theorem erase_store_self (location : Location) (node : Node) :
    (tree.store location node).erase location = tree.erase location := by
  simp [store, erase]

theorem effect {result : Except FileError Bool} (h : write.run tree = (result, tree')) :
    write.Effect tree result tree' where
  unchanged_iff := by
    rw [← read_eq_ok_iff]
    rcases run_cases h with ⟨rfl, hread, _⟩ | ⟨rfl, hread, _⟩ | ⟨e, rfl, hread, _⟩
    · simp [hread]
    · simp [hread]
    · simp [hread]
  unchanged := by
    intro hresult
    rcases run_cases h with ⟨_, _, hsame⟩ | ⟨rfl, _⟩ | ⟨e, rfl, _⟩
    · exact hsame
    · cases hresult
    · cases hresult
  written := by
    intro hresult
    rcases run_cases h with ⟨rfl, _⟩ | ⟨_, _, location, hplace, rfl⟩ | ⟨e, rfl, _⟩
    · cases hresult
    · have hnode := (fileAt?_eq_some_iff.mp hplace).1
      refine ⟨read_store hplace write.contents, location, hplace, erase_store_self location _, ?_⟩
      intro other hother
      rw [node?_store (isEnclosing_of_node?_ne hnode), if_neg hother]
    · cases hresult
  failed := by
    intro e hresult
    rcases run_cases h with ⟨rfl, _⟩ | ⟨rfl, _⟩ | ⟨_, _, _, hsame⟩
    · cases hresult
    · cases hresult
    · exact hsame
  failed_iff := by
    intro hunused
    unfold run at h
    cases hplace : tree.fileAt? write.path with
    | none =>
      obtain ⟨e, he⟩ := writeVia_of_fileAt?_eq_none hplace write.temporary write.contents
      rw [he] at h
      cases h
      simp
    | some location =>
      rw [writeVia_of_fileAt? hplace hunused] at h
      split at h <;> cases h <;> simp

/-- After a write that succeeds the contents are there, so that the same write does nothing. -/
theorem run_again {changed : Bool} (h : write.run tree = (.ok changed, tree')) (temporary : String) :
    ({ write with temporary } : Write).run tree' = (.ok false, tree') := by
  have hread : tree'.read write.path = .ok write.contents := by
    rcases run_cases h with ⟨_, hread, rfl⟩ | ⟨_, _, location, hplace, rfl⟩ | ⟨e, he, _⟩
    · exact hread
    · exact read_store hplace write.contents
    · cases he
  unfold run writeVia
  rw [hread]
  simp

/-- `writeIfChanged` makes a write with a new name for the temporary file. -/
theorem exists_run_eq (tree : FileTree) (path : String) (contents : ByteArray) :
    ∃ temporary, tree.IsUnused temporary path ∧
      tree.writeIfChanged path contents = (⟨temporary, path, contents⟩ : Write).run tree :=
  ⟨_, isUnused_unusedName (List.subset_append_left _ _) path, rfl⟩

/-! ### Writes in a row -/

theorem runAll_cons (write : Write) (rest : List Write) (tree : FileTree) :
    runAll (write :: rest) tree =
      ((write.run tree).1 :: (runAll rest (write.run tree).2).1, (runAll rest (write.run tree).2).2) := rfl

theorem runAll_append (before after : List Write) (tree : FileTree) :
    runAll (before ++ after) tree =
      ((runAll before tree).1 ++ (runAll after (runAll before tree).2).1, (runAll after (runAll before tree).2).2) := by
  induction before generalizing tree with
  | nil => rfl
  | cons write before ih =>
    rw [List.cons_append, runAll_cons, runAll_cons, ih]
    rfl

theorem length_runAll (writes : List Write) (tree : FileTree) : (runAll writes tree).1.length = writes.length := by
  induction writes generalizing tree with
  | nil => rfl
  | cons write writes ih =>
    rw [runAll_cons, List.length_cons, List.length_cons, ih]

/-- The result of a write in a row is that of the write on the tree that those before it leave. -/
theorem getElem?_runAll (before after : List Write) (write : Write) (tree : FileTree) :
    (runAll (before ++ write :: after) tree).1[before.length]? = some (write.run (runAll before tree).2).1 := by
  rw [runAll_append, ← length_runAll before tree, List.getElem?_append_right (Nat.le_refl _), Nat.sub_self]
  rfl

/-- Each write in a row has its effect on the tree that those before it leave, and the same write right after one that
succeeds does nothing. What `writeIfChanged` does to that tree is one of these writes. -/
theorem runAll_effects (before after : List Write) (write : Write) (tree : FileTree) :
    ∃ result tree', write.run (runAll before tree).2 = (result, tree') ∧
      (runAll (before ++ write :: after) tree).1[before.length]? = some result ∧
      write.Effect (runAll before tree).2 result tree' ∧
      (∀ changed temporary, result = .ok changed →
        (runAll (before ++ write :: { write with temporary } :: after) tree).1[before.length + 1]? =
          some (.ok false)) ∧
      ∃ temporary, (runAll before tree).2.IsUnused temporary write.path ∧
        (runAll before tree).2.writeIfChanged write.path write.contents =
          ({ write with temporary } : Write).run (runAll before tree).2 := by
  cases hrun : write.run (runAll before tree).2 with
  | mk result tree' =>
    refine ⟨result, tree', rfl, by rw [getElem?_runAll, hrun], effect hrun, ?_, exists_run_eq _ _ _⟩
    rintro changed temporary rfl
    have hreached : (runAll (before ++ [write]) tree).2 = tree' := by
      rw [runAll_append]
      exact congrArg Prod.snd hrun
    have hagain := getElem?_runAll (before ++ [write]) after { write with temporary } tree
    rw [hreached, run_again hrun, List.append_assoc, List.length_append] at hagain
    exact hagain

/-- A directory that holds a draft and a directory. -/
def draftTree : FileTree := ⟨[(["draft"], .file "old".toUTF8), (["notes"], .directory)]⟩

/-- A write to the draft by a detour. -/
def draftWrite : Write := ⟨".tmp0", "notes/../draft", "new".toUTF8⟩

/-- The draft is replaced, the directory beside it stays, and the same write does nothing after that. -/
theorem runAll_effects_draftTree :
    (draftWrite.run draftTree).1 = .ok true ∧
      (draftWrite.run draftTree).2.read "notes/../draft" = .ok "new".toUTF8 ∧
      (draftWrite.run draftTree).2.node? ["notes"] = some .directory ∧
      (draftWrite.run draftTree).2.node? [".tmp0"] = none ∧
      (runAll [draftWrite, { draftWrite with temporary := ".tmp7" }] draftTree).1[1]? = some (.ok false) := by
  obtain ⟨result, tree', hrun, _, heffect, hagain, _⟩ := runAll_effects [] [] draftWrite draftTree
  have hresult : (draftWrite.run draftTree).1 = .ok true := by decide +kernel
  have hplace : draftTree.fileAt? "notes/../draft" = some ["draft"] := by decide +kernel
  have hrun : draftWrite.run draftTree = (result, tree') := hrun
  rw [hrun] at hresult ⊢
  obtain ⟨hread, location, hlocation, _, hothers⟩ := heffect.written hresult
  cases hplace.symm.trans hlocation
  refine ⟨hresult, hread, ?_, ?_, hagain true ".tmp7" hresult⟩
  · rw [hothers _ (by decide)]
    rfl
  · rw [hothers _ (by decide)]
    rfl

end Write

end IsaForge.FileTree
