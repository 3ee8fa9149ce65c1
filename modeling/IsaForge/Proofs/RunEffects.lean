import IsaForge.CommandLine
import IsaForge.Proofs.Accepted
import IsaForge.Proofs.StoredFiles

/-!
What a run does to the files. Loading reads its inputs and leaves the tree as it is (`readsAll_load`); writing stores
the outputs in order up to the first that fails (`writeAllTo_stores`). From the two follows what the tree is after each
way in which a run can end (`Request.effects_of_run`), and when a second run changes nothing.
-/

namespace IsaForge

namespace FileTree

variable {tree tree' tree'' : FileTree}

/-! ### Stored files -/

/-- What is at a place once files are stored in order: the last that is stored there. -/
def nodeAfter (tree : FileTree) (outputs : List (String × ByteArray)) (location : Location) : Option Node :=
  match outputs.reverse.find? fun output => tree.fileAt? output.1 == some location with
  | some output => some (.file output.2)
  | none => tree.node? location

/-- The second tree is the first one with files stored in order and nothing else changed. -/
structure Stores (tree : FileTree) (outputs : List (String × ByteArray)) (tree' : FileTree) : Prop where
  places : ∀ output ∈ outputs, ∃ location, tree.fileAt? output.1 = some location
  nodes : ∀ location, tree'.node? location = tree.nodeAfter outputs location

theorem nodeAfter_append (outputs : List (String × ByteArray)) (output : String × ByteArray)
    (location : Location) :
    tree.nodeAfter (outputs ++ [output]) location =
      if tree.fileAt? output.1 = some location then some (.file output.2)
      else tree.nodeAfter outputs location := by
  rw [nodeAfter, List.reverse_append, List.reverse_singleton, List.singleton_append, List.find?_cons]
  by_cases h : tree.fileAt? output.1 = some location
  · rw [h, if_pos rfl, beq_self_eq_true]
  · rw [if_neg h, beq_false_of_ne h]
    rfl

theorem nodeAfter_of_forall_ne {outputs : List (String × ByteArray)} {location : Location}
    (h : ∀ output ∈ outputs, tree.fileAt? output.1 ≠ some location) :
    tree.nodeAfter outputs location = tree.node? location := by
  rw [nodeAfter, List.find?_eq_none.mpr]
  intro output houtput
  rw [beq_false_of_ne (h output (List.mem_reverse.mp houtput))]
  decide

namespace Stores

variable {outputs : List (String × ByteArray)}

theorem nil (tree : FileTree) : tree.Stores [] tree :=
  ⟨nofun, fun _ => rfl⟩

theorem sameDirectories (h : tree.Stores outputs tree') : tree.SameDirectories tree' := by
  intro location
  rw [h.nodes, nodeAfter]
  split
  · next output hfind =>
    have hplace := List.find?_some hfind
    rw [beq_iff_eq] at hplace
    exact ⟨fun hnode => absurd hnode (fileAt?_eq_some_iff.mp hplace).1, nofun⟩
  · exact Iff.rfl

theorem fileAt?_eq (h : tree.Stores outputs tree') (path : String) : tree'.fileAt? path = tree.fileAt? path :=
  h.sameDirectories.fileAt?_eq path

/-- A write that succeeds stores one file more. -/
theorem snoc (h : tree.Stores outputs tree') {path : String} {contents : ByteArray} {changed : Bool}
    (hwrite : tree'.writeIfChanged path contents = (.ok changed, tree'')) :
    tree.Stores (outputs ++ [(path, contents)]) tree'' := by
  cases hplace : tree'.fileAt? path with
  | none =>
    obtain ⟨e, he⟩ := writeIfChanged_of_fileAt?_eq_none hplace contents
    rw [he] at hwrite
    cases hwrite
  | some place =>
    have hplace₀ : tree.fileAt? path = some place := by rw [← h.fileAt?_eq, hplace]
    refine ⟨fun output houtput => ?_, fun location => ?_⟩
    · rcases List.mem_append.mp houtput with hmem | hmem
      · exact h.places output hmem
      · rw [List.mem_singleton.mp hmem]
        exact ⟨place, hplace₀⟩
    · rw [writeIfChanged_of_fileAt? hplace] at hwrite
      rw [nodeAfter_append, hplace₀, ← h.nodes]
      simp only [Option.some.injEq]
      split at hwrite
      · next hsame =>
        cases hwrite
        split
        · next heq => rw [← heq, hsame]
        · rfl
      · cases hwrite
        have henclosing := isEnclosing_of_node?_ne (fileAt?_eq_some_iff.mp hplace).1
        rw [node?_store henclosing]
        simp only [eq_comm]

/-- A file that none of the outputs replaces is read as before. -/
theorem read_other (h : tree.Stores outputs tree') {path : String} {contents : ByteArray}
    (hread : tree.read path = .ok contents)
    (hother : ∀ output ∈ outputs, tree.fileAt? output.1 ≠ tree.fileAt? path) :
    tree'.read path = .ok contents := by
  obtain ⟨location, hplace, hnode⟩ := read_eq_ok_iff.mp hread
  refine read_eq_ok_iff.mpr ⟨location, by rw [h.fileAt?_eq, hplace], ?_⟩
  rw [h.nodes, nodeAfter_of_forall_ne, hnode]
  rw [← hplace]
  exact hother

/-- Each output is read back if they are at different places. -/
theorem read_output (h : tree.Stores outputs tree') (hnodup : (outputs.map fun output => tree.fileAt? output.1).Nodup)
    {output : String × ByteArray} (houtput : output ∈ outputs) : tree'.read output.1 = .ok output.2 := by
  obtain ⟨location, hplace⟩ := h.places output houtput
  refine read_eq_ok_iff.mpr ⟨location, by rw [h.fileAt?_eq, hplace], ?_⟩
  rw [h.nodes, nodeAfter]
  split
  · next found hfind =>
    have hfound := List.find?_some hfind
    rw [beq_iff_eq, ← hplace] at hfound
    have hmem := List.mem_reverse.mp (List.mem_of_find?_eq_some hfind)
    rw [List.inj_on_of_nodup_map hnodup hmem houtput hfound]
  · next hfind =>
    have hne := List.find?_eq_none.mp hfind output (List.mem_reverse.mpr houtput)
    exact absurd (beq_iff_eq.mpr hplace) hne

/-- Storing the same files again changes nothing. -/
theorem again (h : tree.Stores outputs tree') (h' : tree'.Stores outputs tree'') (location : Location) :
    tree''.node? location = tree'.node? location := by
  have hplaces : tree'.fileAt? = tree.fileAt? := funext h.fileAt?_eq
  rw [h'.nodes, h.nodes, nodeAfter, nodeAfter, hplaces, h.nodes, nodeAfter]
  split
  · rfl
  · rfl

end Stores

end FileTree

/-! ### Loading -/

section Reading

variable {α β : Type} {tree : FileTree} {paths paths' : List String}

/-- A computation leaves a tree as it is. It fails there, or it reads all of the given paths and comes to the same on
every tree where they hold the same. -/
def ReadsAll (x : ExceptT Failure (StateM FileTree) α) (tree : FileTree) (paths : List String) : Prop :=
  (∃ failure, x.run.run tree = (.error failure, tree)) ∨
    ∃ a, (∀ path ∈ paths, ∃ contents, tree.read path = .ok contents) ∧
      ∀ tree', (∀ path ∈ paths, tree'.read path = tree.read path) → x.run.run tree' = (.ok a, tree')

theorem run_bind_of {x : StateM FileTree α} {f : α → StateM FileTree β} {a : α} {tree' : FileTree}
    (h : x.run tree = (a, tree')) : (x >>= f).run tree = (f a).run tree' := by
  show (f (x.run tree).1).run (x.run tree).2 = _
  rw [h]

theorem readsAll_pure (a : α) (tree : FileTree) : ReadsAll (pure a) tree [] :=
  .inr ⟨a, nofun, fun _ _ => rfl⟩

theorem readsAll_throw (failure : Failure) (tree : FileTree) (paths : List String) :
    ReadsAll (throw failure : ExceptT Failure (StateM FileTree) α) tree paths :=
  .inl ⟨failure, rfl⟩

theorem ReadsAll.bind {x : ExceptT Failure (StateM FileTree) α} {f : α → ExceptT Failure (StateM FileTree) β}
    (hx : ReadsAll x tree paths) (hf : ∀ a, ReadsAll (f a) tree paths') :
    ReadsAll (x >>= f) tree (paths ++ paths') := by
  have hrun (tree' : FileTree) : (x >>= f).run.run tree' =
      match x.run.run tree' with
      | (.ok a, tree'') => (f a).run.run tree''
      | (.error failure, tree'') => (.error failure, tree'') := by
    rw [ExceptT.run_bind, StateT.run_bind]
    rcases x.run.run tree' with ⟨result, tree''⟩
    cases result <;> rfl
  rcases hx with ⟨failure, hx⟩ | ⟨a, hreads, hx⟩
  · exact .inl ⟨failure, by rw [hrun, hx]⟩
  · rcases hf a with ⟨failure, hf⟩ | ⟨b, hreads', hf⟩
    · exact .inl ⟨failure, by rw [hrun, hx tree fun _ _ => rfl]; exact hf⟩
    · refine .inr ⟨b, fun path hpath => ?_, fun tree' hsame => ?_⟩
      · exact (List.mem_append.mp hpath).elim (hreads path) (hreads' path)
      · rw [hrun, hx tree' fun path hpath => hsame path (List.mem_append_left _ hpath)]
        exact hf tree' fun path hpath => hsame path (List.mem_append_right _ hpath)

/-- The text of a file that was read. -/
def textOf (path : String) : Except FileError ByteArray → Except Failure String
  | .error e => .error (.unreadable path (.file e))
  | .ok contents =>
    match String.fromUTF8? contents with
    | none => .error (.unreadable path .encoding)
    | some text => .ok text

theorem run_readText (path : String) (tree : FileTree) :
    (Request.readText .ofTree path).run.run tree = (textOf path (tree.read path), tree) := by
  have hrun : (FileAccess.ofTree.read path).run tree = (tree.read path, tree) := rfl
  show StateT.run (ExceptT.lift (FileAccess.ofTree.read path) >>= _).run tree = _
  rw [ExceptT.run_bind_lift, run_bind_of hrun]
  cases tree.read path with
  | error e => rfl
  | ok contents =>
    dsimp only [textOf]
    cases String.fromUTF8? contents <;> rfl

theorem readsAll_readText (path : String) (tree : FileTree) :
    ReadsAll (Request.readText .ofTree path) tree [path] := by
  cases htext : textOf path (tree.read path) with
  | error failure => exact .inl ⟨failure, by rw [run_readText, htext]⟩
  | ok text =>
    refine .inr ⟨text, List.forall_mem_singleton.mpr ?_, fun tree' hsame => ?_⟩
    · cases hread : tree.read path with
      | error e =>
        rw [hread] at htext
        cases htext
      | ok contents => exact ⟨contents, rfl⟩
    · rw [run_readText, List.forall_mem_singleton.mp hsame, htext]

/-- The files that a request reads. -/
def Request.inputs (request : Request) : List String :=
  request.config?.toList ++ [request.source]

theorem readsAll_loadConfig (request : Request) (tree : FileTree) :
    ReadsAll (request.loadConfig .ofTree) tree request.config?.toList := by
  rw [Request.loadConfig]
  rcases request.config? with _ | path
  on_goal 2 =>
    refine (readsAll_readText path tree).bind fun text => ?_
    rcases Config.parse text with e | config
    · exact .inl ⟨.invalidConfigFile path e, rfl⟩
  -- what is left with or without a path is to check the configuration
  all_goals
    refine (readsAll_pure _ tree).bind fun config => ?_
    dsimp only
    split
    · exact readsAll_pure _ tree
    · exact readsAll_throw _ tree []

theorem readsAll_load (request : Request) (tree : FileTree) :
    ReadsAll (request.load .ofTree) tree request.inputs := by
  refine (readsAll_loadConfig request tree).bind fun config => ?_
  rw [← List.append_nil [request.source]]
  exact (readsAll_readText request.source tree).bind fun source => readsAll_pure _ tree

/-- What a request loads from a tree. -/
def Request.loadFrom (request : Request) (tree : FileTree) : Except Failure (Config × String) :=
  ((request.load .ofTree).run.run tree).1

theorem run_load (request : Request) (tree : FileTree) :
    (request.load .ofTree).run.run tree = (request.loadFrom tree, tree) := by
  rw [Request.loadFrom]
  rcases readsAll_load request tree with ⟨failure, hload⟩ | ⟨loaded, _, hload⟩
  · rw [hload]
  · rw [hload tree fun _ _ => rfl]

/-- What was loaded is loaded again from a tree where the inputs are still read as before. -/
theorem loadFrom_of_read {request : Request} {tree' : FileTree} {loaded : Config × String}
    (hload : request.loadFrom tree = .ok loaded)
    (hread : ∀ path ∈ request.inputs, ∀ contents, tree.read path = .ok contents → tree'.read path = .ok contents) :
    request.loadFrom tree' = .ok loaded := by
  rw [Request.loadFrom] at hload ⊢
  rcases readsAll_load request tree with ⟨failure, hfail⟩ | ⟨loaded', hinputs, hsame⟩
  · rw [hfail] at hload
    cases hload
  · rw [hsame tree fun _ _ => rfl] at hload
    rw [hsame tree' fun path hpath => ?_]
    · exact hload
    · obtain ⟨contents, hcontents⟩ := hinputs path hpath
      rw [hcontents, hread path hpath contents hcontents]

end Reading

/-! ### Writing -/

section Writing

variable {tree tree' : FileTree} {done rest : List (String × ByteArray)} {path : String} {contents : ByteArray}

/-- Write files to a tree, in order and up to the first that fails. -/
def writeAllTo (tree : FileTree) (outputs : List (String × ByteArray)) : Option Failure × FileTree :=
  (Request.writeAll .ofTree outputs).run tree

theorem writeAllTo_of_ok {changed : Bool} (h : tree.writeIfChanged path contents = (.ok changed, tree')) :
    writeAllTo tree ((path, contents) :: rest) = writeAllTo tree' rest := by
  rw [writeAllTo, Request.writeAll]
  exact run_bind_of (x := FileAccess.ofTree.write path contents) h

theorem writeAllTo_of_error {e : FileError} (h : tree.writeIfChanged path contents = (.error e, tree')) :
    writeAllTo tree ((path, contents) :: rest) = (some (.notWritten path e), tree') := by
  rw [writeAllTo, Request.writeAll]
  exact run_bind_of (x := FileAccess.ofTree.write path contents) h

/-- How writing ends before the given files: none is left, or the first of them cannot be written. -/
def EndsBefore (tree : FileTree) : List (String × ByteArray) → Option Failure → Prop
  | [], failure? => failure? = none
  | (path, contents) :: _, failure? =>
    ∃ e, tree.writeIfChanged path contents = (.error e, tree) ∧ failure? = some (.notWritten path e)

theorem eq_nil_of_endsBefore (h : EndsBefore tree rest none) : rest = [] := by
  cases rest with
  | nil => rfl
  | cons output rest =>
    obtain ⟨e, _, hfailure⟩ := h
    cases hfailure

theorem writeAllTo_stores (h : tree.Stores done tree') (outputs : List (String × ByteArray)) :
    ∃ more rest, outputs = more ++ rest ∧ tree.Stores (done ++ more) (writeAllTo tree' outputs).2 ∧
      EndsBefore (writeAllTo tree' outputs).2 rest (writeAllTo tree' outputs).1 := by
  induction outputs generalizing done tree' with
  | nil => exact ⟨[], [], rfl, by rwa [List.append_nil], rfl⟩
  | cons output outputs ih =>
    obtain ⟨path, contents⟩ := output
    cases hwrite : tree'.writeIfChanged path contents with
    | mk result tree'' =>
      cases result with
      | ok changed =>
        rw [writeAllTo_of_ok hwrite]
        obtain ⟨more, rest, houtputs, hstores, hend⟩ := ih (h.snoc hwrite)
        rw [List.append_assoc, List.singleton_append] at hstores
        exact ⟨(path, contents) :: more, rest, by rw [houtputs, List.cons_append], hstores, hend⟩
      | error e =>
        obtain rfl := (FileTree.fileAt?_eq_none_of_error hwrite).2
        rw [writeAllTo_of_error hwrite]
        exact ⟨[], (path, contents) :: outputs, rfl, by rwa [List.append_nil], e, hwrite, rfl⟩

/-- Files that have their places are all written. -/
theorem writeAllTo_of_places {outputs : List (String × ByteArray)}
    (h : ∀ output ∈ outputs, ∃ location, tree.fileAt? output.1 = some location) :
    (writeAllTo tree outputs).1 = none ∧ tree.Stores outputs (writeAllTo tree outputs).2 := by
  obtain ⟨more, rest, houtputs, hstores, hend⟩ := writeAllTo_stores (.nil tree) outputs
  cases rest with
  | nil =>
    rw [List.append_nil] at houtputs
    exact ⟨hend, by rwa [houtputs] at hstores ⊢⟩
  | cons output rest =>
    obtain ⟨e, hwrite, _⟩ := hend
    obtain ⟨place, hplace⟩ := h output (houtputs ▸ List.mem_append_right _ List.mem_cons_self)
    rw [← hstores.fileAt?_eq, (FileTree.fileAt?_eq_none_of_error hwrite).1] at hplace
    cases hplace

/-- Files that hold their contents already are left alone. -/
theorem writeAllTo_of_read {outputs : List (String × ByteArray)}
    (h : ∀ output ∈ outputs, tree.read output.1 = .ok output.2) : writeAllTo tree outputs = (none, tree) := by
  induction outputs with
  | nil => rfl
  | cons output outputs ih =>
    obtain ⟨hread, hreads⟩ := List.forall_mem_cons.mp h
    obtain ⟨location, hplace, hnode⟩ := FileTree.read_eq_ok_iff.mp hread
    have hwrite := FileTree.writeIfChanged_of_fileAt? hplace output.2
    rw [if_pos hnode] at hwrite
    rw [writeAllTo_of_ok hwrite, ih hreads]

end Writing

/-! ### Runs -/

/-- The files that a request asks for, in order: the four artifacts, and then the document if it is wanted. -/
def Request.outputs (request : Request) (config : Config) (compilation : Compilation) (texts : PerArtifact String) :
    List (String × ByteArray) :=
  let directory := request.output?.getD (directoryOf request.source)
  [(pathIn directory config.files.opcodes, texts.opcodes.toUTF8),
    (pathIn directory config.files.decode, texts.decode.toUTF8),
    (pathIn directory config.files.disasm, texts.disasm.toUTF8),
    (pathIn directory config.files.execute, texts.execute.toUTF8)] ++
    request.dumpTable?.toList.map fun path => (path, compilation.document.pretty.toUTF8)

/-- What carrying out a plan comes to. -/
def Plan.carryOut (plan : Plan) (tree : FileTree) : Report × FileTree :=
  match plan.writes with
  | .error failure => (⟨plan.warnings, plan.output, some failure⟩, tree)
  | .ok writes => (⟨plan.warnings, plan.output, (writeAllTo tree writes).1⟩, (writeAllTo tree writes).2)

namespace Request

variable {request : Request} {tree tree' : FileTree} {config : Config} {source : String}
  {compilation : Compilation}

theorem run_of_load_error {failure : Failure} (h : request.loadFrom tree = .error failure) :
    (request.run .ofTree).run tree = ({ failure? := some failure }, tree) := by
  rw [run, run_bind_of (run_load request tree), h]
  rfl

theorem run_of_load_ok (h : request.loadFrom tree = .ok (config, source)) :
    (request.run .ofTree).run tree = (Plan.make request config source).carryOut tree := by
  rw [run, run_bind_of (run_load request tree), h, Plan.carryOut]
  dsimp only
  cases (Plan.make request config source).writes with
  | error failure => rfl
  | ok writes => rfl

/-- Overlaps that the user is warned about. -/
def warnings (request : Request) (compilation : Compilation) : List String :=
  if request.checkOverlaps then compilation.table.overlaps.map (·.text) else []

theorem run_of_ofSource_error {e : Error} (hload : request.loadFrom tree = .ok (config, source))
    (hsource : Compilation.ofSource source config = .error e) :
    (request.run .ofTree).run tree = ({ failure? := some (.notCompiled request.source e) }, tree) := by
  rw [run_of_load_ok hload]
  unfold Plan.make
  rw [hsource]
  rfl

theorem run_of_decode (hload : request.loadFrom tree = .ok (config, source))
    (hsource : Compilation.ofSource source config = .ok compilation) (hdecode : request.decode ≠ []) :
    (request.run .ofTree).run tree =
      (⟨request.warnings compilation, request.decode.map (Plan.decodedLine compilation.table), none⟩, tree) := by
  rw [run_of_load_ok hload]
  unfold Plan.make
  rw [hsource]
  dsimp only
  rw [if_neg (mt List.isEmpty_iff.mp hdecode)]
  rfl

theorem run_of_generate_error {e : Error} (hload : request.loadFrom tree = .ok (config, source))
    (hsource : Compilation.ofSource source config = .ok compilation) (hdecode : request.decode = [])
    (hitems : compilation.generate config = .error e) :
    (request.run .ofTree).run tree =
      (⟨request.warnings compilation, [], some (.notGenerated request.source e)⟩, tree) := by
  rw [run_of_load_ok hload]
  unfold Plan.make
  rw [hsource]
  dsimp only
  rw [if_pos (List.isEmpty_iff.mpr hdecode), Plan.writesOf, hitems]
  rfl

theorem run_of_generate_ok {items : PerArtifact (List (List Code.Tree))}
    (hload : request.loadFrom tree = .ok (config, source))
    (hsource : Compilation.ofSource source config = .ok compilation) (hdecode : request.decode = [])
    (hitems : compilation.generate config = .ok items) :
    (request.run .ofTree).run tree =
      (⟨request.warnings compilation, [],
        (writeAllTo tree (request.outputs config compilation (items.map artifactText))).1⟩,
        (writeAllTo tree (request.outputs config compilation (items.map artifactText))).2) := by
  rw [run_of_load_ok hload]
  unfold Plan.make
  rw [hsource]
  dsimp only
  rw [if_pos (List.isEmpty_iff.mpr hdecode), Plan.writesOf, hitems]
  rfl

/-- A run that wrote: the outputs are stored in order up to the first that cannot be written. If all of them are stored
and none replaces an input, then a second run ends in the same way and changes no file; if moreover no two of them are
the same file, it does not even write one. -/
structure Written (request : Request) (outputs : List (String × ByteArray)) (tree : FileTree) (report : Report)
    (tree' : FileTree) : Prop where
  stored : ∃ done rest, outputs = done ++ rest ∧ tree.Stores done tree' ∧ EndsBefore tree' rest report.failure?
  repeated : report.failure? = none →
    (∀ input ∈ request.inputs, ∀ output ∈ outputs, tree.fileAt? output.1 ≠ tree.fileAt? input) →
    ∃ tree'', (request.run .ofTree).run tree' = (report, tree'') ∧
      (∀ location, tree''.node? location = tree'.node? location) ∧
      ((outputs.map fun output => tree.fileAt? output.1).Nodup → tree'' = tree')

/-- Each way in which a run can end, with what the tree is then. -/
structure Effects (request : Request) (tree : FileTree) (report : Report) (tree' : FileTree) : Prop where
  unloaded : ∀ failure, request.loadFrom tree = .error failure → report.failure? = some failure ∧ tree' = tree
  uncompiled : ∀ config source e, request.loadFrom tree = .ok (config, source) →
    Compilation.ofSource source config = .error e →
    report.failure? = some (.notCompiled request.source e) ∧ tree' = tree
  decoded : request.decode ≠ [] → tree' = tree
  ungenerated : ∀ config source compilation e, request.loadFrom tree = .ok (config, source) →
    Compilation.ofSource source config = .ok compilation → request.decode = [] →
    compilation.generate config = .error e →
    report.failure? = some (.notGenerated request.source e) ∧ tree' = tree
  written : ∀ config source compilation items, request.loadFrom tree = .ok (config, source) →
    Compilation.ofSource source config = .ok compilation → request.decode = [] →
    compilation.generate config = .ok items →
    request.Written (request.outputs config compilation (items.map artifactText)) tree report tree'

theorem written_of_run {items : PerArtifact (List (List Code.Tree))} {report : Report}
    (hload : request.loadFrom tree = .ok (config, source))
    (hsource : Compilation.ofSource source config = .ok compilation) (hdecode : request.decode = [])
    (hitems : compilation.generate config = .ok items) (hrun : (request.run .ofTree).run tree = (report, tree')) :
    request.Written (request.outputs config compilation (items.map artifactText)) tree report tree' := by
  rw [run_of_generate_ok hload hsource hdecode hitems] at hrun
  obtain ⟨rfl, rfl⟩ := Prod.mk.inj hrun
  obtain ⟨done, rest, houtputs, hstores, hend⟩ :=
    writeAllTo_stores (.nil tree) (request.outputs config compilation (items.map artifactText))
  rw [List.nil_append] at hstores
  refine ⟨⟨done, rest, houtputs, hstores, hend⟩, fun hnone hinputs => ?_⟩
  dsimp only at hnone
  obtain rfl := eq_nil_of_endsBefore (hnone ▸ hend)
  rw [List.append_nil] at houtputs
  rw [← houtputs] at hstores
  have hload' := loadFrom_of_read hload fun input hinput contents hread =>
    hstores.read_other hread (hinputs input hinput)
  have hplaces := fun output houtput => (hstores.fileAt?_eq (Prod.fst output)).symm ▸ hstores.places output houtput
  obtain ⟨hnone', hstores'⟩ := writeAllTo_of_places hplaces
  refine ⟨_, ?_, hstores.again hstores', fun hnodup => ?_⟩
  · rw [run_of_generate_ok hload' hsource hdecode hitems, hnone', hnone]
  · rw [writeAllTo_of_read fun output houtput => hstores.read_output hnodup houtput]

theorem effects_of_run {report : Report} (hrun : (request.run .ofTree).run tree = (report, tree')) :
    request.Effects tree report tree' where
  unloaded failure hload := by
    rw [run_of_load_error hload] at hrun
    cases hrun
    exact ⟨rfl, rfl⟩
  uncompiled config source e hload hsource := by
    rw [run_of_ofSource_error hload hsource] at hrun
    cases hrun
    exact ⟨rfl, rfl⟩
  decoded hdecode := by
    cases hload : request.loadFrom tree with
    | error failure =>
      rw [run_of_load_error hload] at hrun
      cases hrun
      rfl
    | ok loaded =>
      obtain ⟨config, source⟩ := loaded
      cases hsource : Compilation.ofSource source config with
      | error e =>
        rw [run_of_ofSource_error hload hsource] at hrun
        cases hrun
        rfl
      | ok compilation =>
        rw [run_of_decode hload hsource hdecode] at hrun
        cases hrun
        rfl
  ungenerated config source compilation e hload hsource hdecode hitems := by
    rw [run_of_generate_error hload hsource hdecode hitems] at hrun
    cases hrun
    exact ⟨rfl, rfl⟩
  written config source compilation items hload hsource hdecode hitems :=
    written_of_run hload hsource hdecode hitems hrun

end Request

/-- What a user sees of a run on accepted arguments, and what the run does to the files. -/
theorem runArguments_effects {arguments : List String} {request : Request}
    (h : Request.parse arguments = .ok request) (tree : FileTree) :
    ∃ report tree', (request.run .ofTree).run tree = (report, tree') ∧
      (runArguments .ofTree arguments).run tree = (report.outcome, tree') ∧
      request.Effects tree report tree' := by
  obtain ⟨report, tree', hrun⟩ : ∃ report tree', (request.run .ofTree).run tree = (report, tree') := ⟨_, _, rfl⟩
  refine ⟨report, tree', hrun, ?_, Request.effects_of_run hrun⟩
  rw [runArguments, h]
  exact run_bind_of hrun

/-- A description of one instruction. -/
def fenceText : String := "FENCE - I \"00000000000000000000000000001111\" - \"\"\n"

/-- A directory that holds it and nothing else. -/
def fenceTree : FileTree := ⟨[(["isa"], .file fenceText.toUTF8)]⟩

/-- The first run stores four files beside the description, and the second one leaves them alone. -/
theorem runArguments_effects_fenceTree :
    Request.parse ["isa"] = .ok { source := "isa" } ∧
      ∃ (report : Report) (tree' : FileTree) (outputs : List (String × ByteArray)),
        (runArguments .ofTree ["isa"]).run fenceTree = (report.outcome, tree') ∧ report.failure? = none ∧
        outputs.map Prod.fst = ["opcodes.rs", "decode.rs", "disasm.rs", "execute.rs"] ∧
        fenceTree.Stores outputs tree' ∧
        (Request.run .ofTree { source := "isa" }).run tree' = (report, tree') := by
  have hparse : Request.parse ["isa"] = .ok { source := "isa" } := by decide +kernel
  have hload : Request.loadFrom { source := "isa" } fenceTree = .ok ({}, fenceText) := by decide +kernel
  have hfailure : ((Request.run .ofTree { source := "isa" }).run fenceTree).1.failure? = none := by decide +kernel
  obtain ⟨compilation, items, _, hsource, hitems, _⟩ := exists_compile fenceText {} (fun _ => true) (by decide +kernel)
  obtain ⟨report, tree', hrun, harguments, heffects⟩ := runArguments_effects hparse fenceTree
  rw [hrun] at hfailure
  have hwritten := heffects.written {} fenceText compilation items hload hsource rfl hitems
  have hplaces : ((Request.outputs { source := "isa" } {} compilation (items.map artifactText)).map fun output =>
      fenceTree.fileAt? output.1) =
        [some ["opcodes.rs"], some ["decode.rs"], some ["disasm.rs"], some ["execute.rs"]] := by
    show ["opcodes.rs", "decode.rs", "disasm.rs", "execute.rs"].map fenceTree.fileAt? = _
    decide +kernel
  have hsource : fenceTree.fileAt? "isa" = some ["isa"] := by decide +kernel
  obtain ⟨tree'', hrun', _, hsame⟩ := hwritten.repeated hfailure fun input hinput output houtput => by
    have hplace := List.mem_map_of_mem (f := fun output => fenceTree.fileAt? output.1) houtput
    rw [hplaces] at hplace
    rw [List.mem_singleton.mp hinput, hsource]
    intro heq
    rw [heq] at hplace
    revert hplace
    decide
  obtain rfl := hsame (by rw [hplaces]; decide)
  obtain ⟨done, rest, houtputs, hstores, hend⟩ := hwritten.stored
  refine ⟨hparse, report, tree'', _, harguments, hfailure, ?_, hstores, hrun'⟩
  obtain rfl := eq_nil_of_endsBefore (hfailure ▸ hend)
  rw [List.append_nil] at houtputs
  rw [← houtputs]
  rfl

end IsaForge
