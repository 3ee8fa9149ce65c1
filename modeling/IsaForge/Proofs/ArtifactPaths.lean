import IsaForge.CommandLine
import IsaForge.Proofs.Placement
import IsaForge.Proofs.StoredFiles

/-!
Where the artifacts go. A plain name adds one step to the path of a directory (`steps_pathIn`), so that the path leads
to the entry of that name in it, unless the name is one of the two that stand for directories (`target_pathIn`). A
configuration that is accepted has four different plain names; these two are among the names that it accepts.
-/

namespace IsaForge

theorem Config.isPlainName_iff {name : String} :
    isPlainName name = true ↔ name ≠ "" ∧ '/' ∉ name.toList ∧ '\\' ∉ name.toList := by
  simp only [isPlainName, Bool.and_eq_true, Bool.not_eq_true', String.isEmpty_eq_false_iff, List.any_eq_false,
    Bool.or_eq_true, beq_iff_eq, not_or]
  grind

namespace FileTree

/-! ### Steps of a path -/

theorem segments_ne_nil (cs : List Char) : segments cs ≠ [] := by
  cases cs with
  | nil => simp [segments]
  | cons c cs =>
    rw [segments]
    split
    · simp
    · split <;> simp

theorem segments_append_slash (cs ds : List Char) :
    segments (cs ++ '/' :: ds) = segments cs ++ segments ds := by
  induction cs with
  | nil =>
    obtain ⟨first, rest, hds⟩ := List.exists_cons_of_ne_nil (segments_ne_nil ds)
    simp [segments, hds]
  | cons c cs ih =>
    obtain ⟨first, rest, hcs⟩ := List.exists_cons_of_ne_nil (segments_ne_nil cs)
    rw [List.cons_append, segments, ih, segments, hcs]
    dsimp only [List.cons_append]
    split <;> rfl

theorem segments_of_notMem {cs : List Char} (h : '/' ∉ cs) : segments cs = [cs] := by
  induction cs with
  | nil => rfl
  | cons c cs ih =>
    simp only [List.mem_cons, not_or] at h
    rw [segments, ih h.2]
    simp [Ne.symm h.1]

theorem steps_append_slash (outer inner : List Char) :
    steps (String.ofList (outer ++ '/' :: inner)) = steps (String.ofList outer) ++ steps (String.ofList inner) := by
  simp only [steps, String.toList_ofList, segments_append_slash, List.map_append, List.filter_append]

/-- A plain name is one step. -/
theorem steps_of_isPlainName {name : String} (h : Config.isPlainName name = true) : steps name = [name] := by
  obtain ⟨hempty, hslash, _⟩ := Config.isPlainName_iff.mp h
  rw [steps, segments_of_notMem hslash, List.map_singleton, String.ofList_toList]
  simp [hempty]

end FileTree

/-! ### Paths in a directory -/

section

open FileTree

variable {directory name : String}

theorem pathIn_cases (directory name : String) :
    (directory = "" ∧ pathIn directory name = name) ∨
    (∃ outer, directory = String.ofList (outer ++ ['/']) ∧
      pathIn directory name = String.ofList (outer ++ '/' :: name.toList)) ∨
    (directory ≠ "" ∧ pathIn directory name = String.ofList (directory.toList ++ '/' :: name.toList)) := by
  rw [pathIn]
  by_cases hempty : directory = ""
  · exact .inl ⟨hempty, by simp [hempty]⟩
  · by_cases hslash : directory.toList.getLast? = some '/'
    · obtain ⟨outer, houter⟩ := List.getLast?_eq_some_iff.mp hslash
      have hdirectory : directory = String.ofList (outer ++ ['/']) := by rw [← houter, String.ofList_toList]
      refine .inr (.inl ⟨outer, hdirectory, ?_⟩)
      rw [if_pos (by simp [hslash]), hdirectory]
      simp [← String.toList_inj]
    · refine .inr (.inr ⟨hempty, ?_⟩)
      rw [if_neg (by simp [hempty, hslash])]
      simp [← String.toList_inj]

/-- A plain name adds one step to the path of a directory. -/
theorem steps_pathIn (h : Config.isPlainName name = true) (directory : String) :
    steps (pathIn directory name) = steps directory ++ [name] := by
  rcases pathIn_cases directory name with ⟨rfl, hpath⟩ | ⟨outer, rfl, hpath⟩ | ⟨_, hpath⟩
  · rw [hpath, steps_of_isPlainName h]
    rfl
  · rw [hpath, steps_append_slash, steps_append_slash, String.ofList_toList, steps_of_isPlainName h]
    simp [steps, segments]
  · rw [hpath, steps_append_slash, String.ofList_toList, String.ofList_toList, steps_of_isPlainName h]

theorem start_pathIn (h : Config.isPlainName name = true) (directory : String) :
    start (pathIn directory name) = start directory := by
  obtain ⟨_, hslash, _⟩ := Config.isPlainName_iff.mp h
  rcases pathIn_cases directory name with ⟨rfl, hpath⟩ | ⟨outer, rfl, hpath⟩ | ⟨hdirectory, hpath⟩
  · have hhead : name.toList.head? ≠ some '/' := fun hhead => hslash (List.mem_of_head? hhead)
    simp [hpath, start, hhead]
  · rw [hpath]
    cases outer with
    | nil => simp [start]
    | cons c outer => simp [start]
  · obtain ⟨c, cs, hcs⟩ := List.exists_cons_of_ne_nil (mt String.toList_eq_nil_iff.mp hdirectory)
    simp [hpath, start, hcs]

theorem getLast?_pathIn (h : Config.isPlainName name = true) (directory : String) :
    (pathIn directory name).toList.getLast? ≠ some '/' := by
  obtain ⟨hempty, hslash, _⟩ := Config.isPlainName_iff.mp h
  have hname : name.toList ≠ [] := mt String.toList_eq_nil_iff.mp hempty
  have hlast : name.toList.getLast? ≠ some '/' := fun hlast => hslash (List.mem_of_getLast? hlast)
  rcases pathIn_cases directory name with ⟨_, hpath⟩ | ⟨outer, _, hpath⟩ | ⟨_, hpath⟩
  · rwa [hpath]
  all_goals
    rw [hpath, String.toList_ofList, List.getLast?_append_cons, List.getLast?_cons_of_ne_nil hname]
    exact hlast

/-- Where the path of a directory leads; the empty path is the working directory. -/
def FileTree.directoryAt (tree : FileTree) (directory : String) : Except FileError Location :=
  tree.follow (start directory) (steps directory)

/-- Where the path of a plain name in a directory leads. -/
theorem target_pathIn {tree : FileTree} {place : Location} (h : Config.isPlainName name = true)
    (hplace : tree.directoryAt directory = .ok place) (htext : textError? (pathIn directory name) = none) :
    tree.target (pathIn directory name) =
      if name = "." then .ok (.directory place)
      else if name = ".." then .ok (.directory place.above)
      else if nameLimit < name.utf8ByteSize then .error .nameTooLong
      else .ok (.entry place name false) := by
  have hfollow : tree.follow (start directory) (steps directory) = .ok place := hplace
  have hlast : ((pathIn directory name).toList.getLast? == some '/') = false :=
    beq_false_of_ne (getLast?_pathIn h directory)
  simp [target, htext, steps_pathIn h, start_pathIn h, hfollow, hlast]

end

/-! ### Artifacts -/

namespace Config

open FileTree

theorem checkFiles_eq_ok_iff {seen names : List String} : checkFiles seen names = .ok () ↔
    names.Nodup ∧ ∀ name ∈ names, isPlainName name = true ∧ name ∉ seen := by
  induction names generalizing seen with
  | nil => simp [checkFiles]
  | cons name names ih =>
    rw [checkFiles]
    by_cases hplain : isPlainName name = true
    · by_cases hseen : name ∈ seen
      · simp [hplain, hseen]
      · simp only [hplain, Bool.not_true, Bool.false_eq_true, if_false, List.contains_eq_mem, hseen, decide_false,
          ih, List.nodup_cons, List.mem_cons, not_or, forall_eq_or_imp, not_false_eq_true, and_true, true_and]
        grind
    · simp [hplain]

theorem names_of_validate {config : Config} (h : config.validate = .ok ()) :
    config.files.toList.Nodup ∧ ∀ name ∈ config.files.toList, isPlainName name = true := by
  have hfiles : checkFiles [] config.files.toList = .ok () := by
    unfold validate at h
    obtain ⟨_, _, h⟩ := bind_eq_ok_iff.mp h
    obtain ⟨_, _, h⟩ := bind_eq_ok_iff.mp h
    obtain ⟨_, _, h⟩ := bind_eq_ok_iff.mp h
    exact h
  obtain ⟨hnodup, hnames⟩ := checkFiles_eq_ok_iff.mp hfiles
  exact ⟨hnodup, fun name hname => (hnames name hname).1⟩

/-- The paths of names in a directory lead to different entries of the directory. They lead nowhere if they cannot be
paths or the names are too long. -/
structure WritesInside (directory : String) (names : List String) : Prop where
  step : ∀ name ∈ names, steps (pathIn directory name) = steps directory ++ [name]
  entry : ∀ name ∈ names, ∀ (tree : FileTree) place, tree.directoryAt directory = .ok place → ∀ target,
    tree.target (pathIn directory name) = .ok target ↔
      textError? (pathIn directory name) = none ∧ name.utf8ByteSize ≤ nameLimit ∧ target = .entry place name false
  different : names.Pairwise fun name other => ∀ (tree : FileTree) place, tree.directoryAt directory = .ok place →
    ∀ target, tree.target (pathIn directory name) = .ok target → tree.target (pathIn directory other) ≠ .ok target

theorem writesInside_of_forall_ne {names : List String} (hnodup : names.Nodup)
    (hplain : ∀ name ∈ names, isPlainName name = true) (hdots : ∀ name ∈ names, name ≠ "." ∧ name ≠ "..")
    (directory : String) : WritesInside directory names := by
  have hentry : ∀ name ∈ names, ∀ (tree : FileTree) place, tree.directoryAt directory = .ok place → ∀ target,
      tree.target (pathIn directory name) = .ok target ↔
        textError? (pathIn directory name) = none ∧ name.utf8ByteSize ≤ nameLimit ∧
          target = .entry place name false := by
    intro name hname tree place hplace target
    cases htext : textError? (pathIn directory name) with
    | some e => simp [FileTree.target, htext]
    | none =>
      rw [target_pathIn (hplain name hname) hplace htext, if_neg (hdots name hname).1, if_neg (hdots name hname).2]
      by_cases hlong : nameLimit < name.utf8ByteSize
      · simp [hlong, Nat.not_le_of_lt hlong]
      · simp [hlong, Nat.le_of_not_lt hlong, eq_comm]
  refine ⟨fun name hname => steps_pathIn (hplain name hname) directory, hentry, ?_⟩
  refine hnodup.imp_of_mem fun {name other} hname hother hne tree place hplace target htarget htarget' => hne ?_
  obtain ⟨_, _, rfl⟩ := (hentry name hname tree place hplace target).mp htarget
  obtain ⟨_, _, heq⟩ := (hentry other hother tree place hplace _).mp htarget'
  cases heq
  rfl

theorem forall_ne_of_writesInside {names : List String} (h : WritesInside "" names) :
    ∀ name ∈ names, name ≠ "." ∧ name ≠ ".." := by
  intro name hname
  have hplace : ({} : FileTree).directoryAt "" = .ok .here := rfl
  have hentry := h.entry name hname {} .here hplace
  constructor
  · intro heq
    rw [heq] at hentry
    have htarget : ({} : FileTree).target (pathIn "" ".") = .ok (.directory .here) := by decide +kernel
    cases ((hentry _).mp htarget).2.2
  · intro heq
    rw [heq] at hentry
    have htarget : ({} : FileTree).target (pathIn "" "..") = .ok (.directory (.above .here)) := by decide +kernel
    cases ((hentry _).mp htarget).2.2

/-- The artifacts come first among the files that a run writes. -/
theorem artifacts_of_writesOf {request : Request} {config : Config} {compilation : Compilation}
    {writes : List (String × ByteArray)} (h : Plan.writesOf request config compilation = .ok writes) :
    (writes.take 4).map Prod.fst =
      config.files.toList.map (pathIn (request.output?.getD (directoryOf request.source))) := by
  rw [Plan.writesOf] at h
  split at h
  · cases h
  · cases h
    rfl

/-- The artifacts of an accepted configuration are four different entries of the directory that they are written to,
whichever it is, unless one of their names stands for a directory. -/
theorem artifacts_inside_iff {config : Config} (h : config.validate = .ok ()) :
    ((∀ directory, WritesInside directory config.files.toList) ↔
      ∀ name ∈ config.files.toList, name ≠ "." ∧ name ≠ "..") ∧
    ∀ request compilation writes, Plan.writesOf request config compilation = .ok writes →
      (writes.take 4).map Prod.fst =
        config.files.toList.map (pathIn (request.output?.getD (directoryOf request.source))) := by
  obtain ⟨hnodup, hplain⟩ := names_of_validate h
  exact ⟨⟨fun hinside => forall_ne_of_writesInside (hinside ""), writesInside_of_forall_ne hnodup hplain⟩,
    fun _ _ _ => artifacts_of_writesOf⟩

/-- Names that begin with dots or have a blank, and are files all the same. -/
def dottedConfig : Config := { files := ⟨"...", ".decode", "disasm .rs", "execute.rs."⟩ }

theorem artifacts_inside_dottedConfig :
    dottedConfig.validate = .ok () ∧ ∀ directory, WritesInside directory dottedConfig.files.toList := by
  have hvalidate : dottedConfig.validate = .ok () := by decide +kernel
  exact ⟨hvalidate, (artifacts_inside_iff hvalidate).1.mpr (by decide)⟩

/-- A directory with the output directory in it. -/
def outputTree : FileTree := ⟨[(["out"], .directory)]⟩

/-- One of the names stands for the directory around the one that is written to. -/
def parentConfig : Config := { files := ⟨"opcodes.rs", "..", "disasm.rs", "execute.rs"⟩ }

/-- The configuration is accepted, and the path of the decoder leads out of the directory. -/
theorem artifacts_outside_parentConfig :
    parentConfig.validate = .ok () ∧
      outputTree.directoryAt "out" = .ok ["out"] ∧
      outputTree.target (pathIn "out" parentConfig.files.decode) = .ok (.directory .here) ∧
      ¬ WritesInside "out" parentConfig.files.toList := by
  have hplace : outputTree.directoryAt "out" = .ok ["out"] := by decide +kernel
  have htarget : outputTree.target (pathIn "out" "..") = .ok (.directory .here) := by decide +kernel
  refine ⟨by decide +kernel, hplace, htarget, fun hinside => ?_⟩
  have hentry := hinside.entry ".." (by decide) _ _ hplace (.directory .here)
  cases (hentry.mp htarget).2.2

end Config

end IsaForge
