import IsaForge.Proofs.LineNumbers

/-!
Lines without a record. Blank lines and comments can be put in and taken out, and line feeds can get a carriage return:
what a description means changes by its line numbers only. A description is read from its busy lines, which are those
that may hold a record, without their outer blanks and with their numbers (`Record.parseSource_eq`), and each such edit
does nothing to them but renumber them (`Relined.busyLines_eq`).
-/

namespace IsaForge

open Text

/-! ### Edits -/

/-- A line that holds no record: it is blank or a comment. -/
def IsIdleLine (line : String) : Prop :=
  '\n' ∉ line.toList ∧ Record.isIdle (trimChars line.toList) = true

/-- A text after which a new line begins. -/
def EndsLine (text : String) : Prop :=
  text.toList = [] ∨ text.toList.getLast? = some '\n'

/-- The second text is the first one with an idle line more, which stands behind the given number of lines. -/
inductive Inserted : String → String → Nat → Prop
  /-- Among the lines, with a line feed of its own. -/
  | between {before line after : String} : EndsLine before → IsIdleLine line →
    Inserted (before ++ after) (before ++ line ++ "\n" ++ after) (lines before).length
  /-- At the end, without a line feed. -/
  | last {before line : String} : EndsLine before → IsIdleLine line →
    Inserted before (before ++ line) (lines before).length
  /-- At the end of a text whose last line has no line feed, which gets one. -/
  | afterLast {before line : String} : IsIdleLine line →
    Inserted before (before ++ "\n" ++ line) (lines before).length

/-- Where the lines are after a line was put in behind the first `k`. -/
def lineAfterInsert (k line : Nat) : Nat :=
  if line ≤ k then line else line + 1

/-- Where the lines are after the line behind the first `k` was taken out. -/
def lineAfterDelete (k line : Nat) : Nat :=
  if line ≤ k then line else line - 1

/-- The second text is the first one with idle lines put in or taken out and carriage returns put before line feeds; the
map says where the other lines are then. -/
inductive Relined : String → String → (Nat → Nat) → Prop
  | refl (source : String) : Relined source source id
  | insert {source source' : String} {k : Nat} : Inserted source source' k →
    Relined source source' (lineAfterInsert k)
  | delete {source source' : String} {k : Nat} : Inserted source' source k →
    Relined source source' (lineAfterDelete k)
  | carriageReturn (before after : String) :
    Relined (before ++ "\n" ++ after) (before ++ "\r\n" ++ after) id
  | trans {source₁ source₂ source₃ : String} {f g : Nat → Nat} : Relined source₁ source₂ f →
    Relined source₂ source₃ g → Relined source₁ source₃ (g ∘ f)

/-! ### Splitting -/

namespace Text

theorem splitLines_newline (line cs : List Char) :
    splitLines line ('\n' :: cs) = closeLine line :: splitLines [] cs := by
  rw [splitLines]

theorem splitLines_cons {c : Char} (hc : c ≠ '\n') (line cs : List Char) :
    splitLines line (c :: cs) = splitLines (c :: line) cs := by
  rw [splitLines]
  exact hc

theorem splitLines_append_newline (line cs after : List Char) :
    splitLines line (cs ++ '\n' :: after) = splitLines line (cs ++ ['\n']) ++ splitLines [] after := by
  induction cs generalizing line with
  | nil =>
    rw [List.nil_append, List.nil_append, splitLines_newline, splitLines_newline]
    rfl
  | cons c cs ih =>
    by_cases hc : c = '\n'
    · subst hc
      rw [List.cons_append, List.cons_append, splitLines_newline, splitLines_newline, ih, List.cons_append]
    · rw [List.cons_append, List.cons_append, splitLines_cons hc, splitLines_cons hc, ih]

/-- A text after which a new line begins is split apart from what follows. -/
theorem splitLines_append {before : String} (hbefore : EndsLine before) (after : List Char) :
    splitLines [] (before.toList ++ after) = splitLines [] before.toList ++ splitLines [] after := by
  rcases hbefore with hnil | hlast
  · rw [hnil]
    rfl
  · obtain ⟨cs, hcs⟩ := List.getLast?_eq_some_iff.mp hlast
    rw [hcs, List.append_assoc, List.singleton_append, splitLines_append_newline]

theorem splitLines_line {cs : List Char} (hcs : '\n' ∉ cs) (line after : List Char) :
    splitLines line (cs ++ '\n' :: after) = closeLine (cs.reverse ++ line) :: splitLines [] after := by
  induction cs generalizing line with
  | nil => exact splitLines_newline line after
  | cons c cs ih =>
    obtain ⟨hc, hcs⟩ := not_or.mp (mt List.mem_cons.mpr hcs)
    rw [List.cons_append, splitLines_cons (Ne.symm hc), ih hcs, List.reverse_cons, List.append_assoc,
      List.singleton_append]

theorem splitLines_last {cs : List Char} (hcs : '\n' ∉ cs) (line : List Char) :
    splitLines line cs = if (cs.reverse ++ line).isEmpty then [] else [(cs.reverse ++ line).reverse] := by
  induction cs generalizing line with
  | nil => rw [splitLines, List.reverse_nil, List.nil_append]
  | cons c cs ih =>
    obtain ⟨hc, hcs⟩ := not_or.mp (mt List.mem_cons.mpr hcs)
    rw [splitLines_cons (Ne.symm hc), ih hcs, List.reverse_cons, List.append_assoc, List.singleton_append]

/-- The carriage return before a line feed is a blank at the end of its line. -/
theorem trimChars_closeLine (line : List Char) : trimChars (closeLine line) = trimChars line.reverse := by
  unfold closeLine
  split
  · rw [List.reverse_cons]
    exact (trimChars_append (List.forall_mem_singleton.mpr rfl)).symm
  · rfl

/-- A line that holds no record is split off as such, or as none at all. -/
theorem isIdle_of_mem_splitLines {line : String} (hline : IsIdleLine line) :
    ∀ cs ∈ (splitLines [] line.toList).map trimChars, Record.isIdle cs = true := by
  rw [splitLines_last hline.1, List.append_nil, List.reverse_reverse]
  split
  · exact nofun
  · rw [List.map_singleton]
    exact List.forall_mem_singleton.mpr hline.2

theorem trimmed_splitLines_afterLast {idle : String} (hidle : IsIdleLine idle) (line cs : List Char) :
    ∃ extra, (∀ cs ∈ extra, Record.isIdle cs = true) ∧
      (splitLines line (cs ++ '\n' :: idle.toList)).map trimChars =
        (splitLines line cs).map trimChars ++ extra := by
  induction cs generalizing line with
  | nil =>
    have hextra := isIdle_of_mem_splitLines hidle
    rw [List.nil_append, splitLines_newline, List.map_cons, trimChars_closeLine]
    cases line with
    | nil => exact ⟨_, List.forall_mem_cons.mpr ⟨rfl, hextra⟩, rfl⟩
    | cons c line => exact ⟨_, hextra, rfl⟩
  | cons c cs ih =>
    by_cases hc : c = '\n'
    · subst hc
      obtain ⟨extra, hextra, hsplit⟩ := ih []
      refine ⟨extra, hextra, ?_⟩
      rw [List.cons_append, splitLines_newline, splitLines_newline, List.map_cons, List.map_cons, hsplit,
        List.cons_append]
    · rw [List.cons_append, splitLines_cons hc, splitLines_cons hc]
      exact ih (c :: line)

theorem trimmed_splitLines_carriageReturn (line cs after : List Char) :
    (splitLines line (cs ++ '\r' :: '\n' :: after)).map trimChars =
      (splitLines line (cs ++ '\n' :: after)).map trimChars := by
  induction cs generalizing line with
  | nil =>
    rw [List.nil_append, List.nil_append, splitLines_cons (by decide), splitLines_newline,
      splitLines_newline, List.map_cons, List.map_cons, trimChars_closeLine, trimChars_closeLine,
      List.reverse_cons, trimChars_append (List.forall_mem_singleton.mpr rfl)]
  | cons c cs ih =>
    by_cases hc : c = '\n'
    · subst hc
      rw [List.cons_append, List.cons_append, splitLines_newline, splitLines_newline, List.map_cons,
        List.map_cons, ih]
    · rw [List.cons_append, List.cons_append, splitLines_cons hc, splitLines_cons hc, ih]

/-- The lines of a text without their outer blanks. -/
def trimmedLines (source : String) : List (List Char) :=
  (splitLines [] source.toList).map trimChars

theorem trimmedLines_append {before : String} (hbefore : EndsLine before) (after : String) :
    trimmedLines (before ++ after) = trimmedLines before ++ trimmedLines after := by
  rw [trimmedLines, String.toList_append, splitLines_append hbefore, List.map_append]
  rfl

theorem trimmedLines_line {line : String} (hline : '\n' ∉ line.toList) (after : String) :
    trimmedLines (line ++ "\n" ++ after) = trimChars line.toList :: trimmedLines after := by
  have htext : (line ++ "\n" ++ after).toList = line.toList ++ '\n' :: after.toList := by simp
  rw [trimmedLines, htext, splitLines_line hline, List.map_cons, trimChars_closeLine, List.append_nil,
    List.reverse_reverse]
  rfl

theorem length_trimmedLines (source : String) : (trimmedLines source).length = (lines source).length := by
  rw [trimmedLines, lines, List.length_map, List.length_map]

end Text

/-! ### Busy lines -/

namespace Record

/-- The lines that may hold a record, with their numbers. -/
def busy (first : Nat) (trimmed : List (List Char)) : List (List Char × Nat) :=
  (trimmed.zipIdx first).filter fun x => !isIdle x.1

/-- The busy lines of a description. -/
def busyLines (source : String) : List (List Char × Nat) :=
  busy 1 (trimmedLines source)

theorem busy_append (first : Nat) (trimmed trimmed' : List (List Char)) :
    busy first (trimmed ++ trimmed') = busy first trimmed ++ busy (first + trimmed.length) trimmed' := by
  rw [busy, List.zipIdx_append, List.filter_append]
  rfl

theorem busy_of_idle (first : Nat) {trimmed : List (List Char)}
    (h : ∀ cs ∈ trimmed, isIdle cs = true) : busy first trimmed = [] := by
  refine List.filter_eq_nil_iff.mpr fun x hx => ?_
  rw [h x.1 (List.fst_mem_of_mem_zipIdx hx)]
  decide

theorem busy_succ (first : Nat) (trimmed : List (List Char)) :
    busy (first + 1) trimmed = (busy first trimmed).map (Prod.map id (· + 1)) := by
  rw [busy, List.zipIdx_succ, List.filter_map]
  rfl

theorem busy_bounds {first : Nat} {trimmed : List (List Char)} {x : List Char × Nat}
    (h : x ∈ busy first trimmed) : first ≤ x.2 ∧ x.2 < first + trimmed.length := by
  have hx := List.mem_zipIdx (List.mem_of_mem_filter h)
  exact ⟨hx.1, hx.2.1⟩

theorem map_lineAfterInsert (trimmed : List (List Char)) :
    (busy 1 trimmed).map (Prod.map id (lineAfterInsert trimmed.length)) = busy 1 trimmed := by
  refine (List.map_congr_left fun x hx => ?_).trans (List.map_id _)
  have hhigh := (busy_bounds hx).2
  exact Prod.ext rfl (if_pos (by omega))

theorem busy_cons (first : Nat) (cs : List Char) (trimmed : List (List Char)) :
    busy first (cs :: trimmed) =
      if isIdle cs then busy (first + 1) trimmed else (cs, first) :: busy (first + 1) trimmed := by
  rw [busy, List.zipIdx_cons, List.filter_cons]
  cases isIdle cs <;> rfl

/-- The lines behind one that is put in move by one, and the others stay. -/
theorem busy_insert {cs : List Char} (hidle : isIdle cs = true) (trimmed trimmed' : List (List Char)) :
    busy 1 (trimmed ++ cs :: trimmed') =
      (busy 1 (trimmed ++ trimmed')).map (Prod.map id (lineAfterInsert trimmed.length)) := by
  rw [busy_append, busy_append, busy_cons, if_pos hidle, List.map_append, map_lineAfterInsert,
    busy_succ (1 + trimmed.length)]
  congr 1
  refine List.map_congr_left fun x hx => Prod.ext rfl ?_
  have hlow := (busy_bounds hx).1
  exact (if_neg (by omega)).symm

/-- A description is read from its busy lines. -/
theorem parseSource_eq (source : String) :
    parseSource source = (busyLines source).mapM fun x => parseRow x.2 x.1 := by
  have hlines (first : Nat) (texts : List (List Char)) :
      parseLines first (texts.map String.ofList) =
        (busy first (texts.map trimChars)).mapM fun x => parseRow x.2 x.1 := by
    induction texts generalizing first with
    | nil => rfl
    | cons text texts ih =>
      rw [List.map_cons, List.map_cons, parseLines, parseLine_eq, String.toList_ofList, ih, busy_cons]
      by_cases hidle : isIdle (trimChars text) = true
      · rw [if_pos hidle, if_pos hidle]
        dsimp only
        cases (busy (first + 1) (texts.map trimChars)).mapM fun x => parseRow x.2 x.1 <;> rfl
      · rw [if_neg hidle, if_neg hidle, List.mapM_cons]
        cases parseRow first (trimChars text) with
        | error e => rfl
        | ok record =>
          dsimp only [Except.map]
          cases (busy (first + 1) (texts.map trimChars)).mapM fun x => parseRow x.2 x.1 <;> rfl
  exact hlines 1 _

end Record

/-! ### What edits do -/

theorem Inserted.busyLines_eq {source source' : String} {k : Nat} (h : Inserted source source' k) :
    Record.busyLines source' = (Record.busyLines source).map (Prod.map id (lineAfterInsert k)) := by
  cases h with
  | @between before line after hbefore hline =>
    rw [← length_trimmedLines, String.append_assoc, String.append_assoc, Record.busyLines,
      trimmedLines_append hbefore, ← String.append_assoc, trimmedLines_line hline.1,
      Record.busyLines, trimmedLines_append hbefore]
    exact Record.busy_insert hline.2 _ _
  | @last _ line hbefore hline =>
    have hidle : Record.busy (1 + (trimmedLines source).length) (trimmedLines line) = [] :=
      Record.busy_of_idle _ (isIdle_of_mem_splitLines hline)
    rw [← length_trimmedLines, Record.busyLines, trimmedLines_append hbefore, Record.busy_append, hidle,
      List.append_nil]
    exact (Record.map_lineAfterInsert _).symm
  | @afterLast _ line hline =>
    have htext : (source ++ "\n" ++ line).toList = source.toList ++ '\n' :: line.toList := by simp
    obtain ⟨extra, hextra, hsplit⟩ := trimmed_splitLines_afterLast hline [] source.toList
    rw [← length_trimmedLines, Record.busyLines, trimmedLines, htext, hsplit, Record.busy_append,
      Record.busy_of_idle _ hextra, List.append_nil]
    exact (Record.map_lineAfterInsert _).symm

theorem Relined.busyLines_eq {source source' : String} {f : Nat → Nat} (h : Relined source source' f) :
    Record.busyLines source' = (Record.busyLines source).map (Prod.map id f) := by
  induction h with
  | refl source => rw [Prod.map_id, List.map_id]
  | insert h => exact h.busyLines_eq
  | @delete source source' k h =>
    have hback : Prod.map id (lineAfterDelete k) ∘ Prod.map id (lineAfterInsert k) =
        (id : List Char × Nat → List Char × Nat) := by
      funext x
      refine Prod.ext rfl ?_
      show lineAfterDelete k (lineAfterInsert k x.2) = x.2
      unfold lineAfterInsert
      split
      · next hle => exact if_pos hle
      · next hlt => exact if_neg (by omega)
    rw [h.busyLines_eq, List.map_map, hback, List.map_id]
  | carriageReturn before after =>
    have htext : (before ++ "\n" ++ after).toList = before.toList ++ '\n' :: after.toList := by simp
    have htext' : (before ++ "\r\n" ++ after).toList = before.toList ++ '\r' :: '\n' :: after.toList := by
      simp
    rw [Prod.map_id, List.map_id, Record.busyLines, Record.busyLines, trimmedLines, trimmedLines, htext,
      htext', trimmed_splitLines_carriageReturn]
  | trans _ _ ih₁ ih₂ =>
    rw [ih₂, ih₁, List.map_map]
    rfl

theorem Relined.parseSource_eq {source source' : String} {f : Nat → Nat} (h : Relined source source' f) :
    Record.parseSource source' =
      renumbered f (List.map (Record.renumber f)) (Record.parseSource source) := by
  rw [Record.parseSource_eq, Record.parseSource_eq, h.busyLines_eq]
  exact mapM_renumbered (fun x => Record.parseRow_renumber x.2 x.1) _

theorem Relined.ofSource_eq {source source' : String} {f : Nat → Nat} (h : Relined source source' f)
    (config : Config) :
    Compilation.ofSource source' config =
      renumbered f (Compilation.renumber f) (Compilation.ofSource source config) := by
  rw [Compilation.ofSource, Compilation.ofSource, h.parseSource_eq]
  nth_rewrite 1 [← Config.validate_renumber f config]
  refine bind_renumbered fun _ => ?_
  refine bind_renumbered fun records => ?_
  rw [Table.ofRecords_renumber]
  refine bind_renumbered fun table => ?_
  rw [Compilation.classify_renumber]
  refine bind_renumbered fun classification => ?_
  rfl

/-- Lines that hold no record, and carriage returns before line feeds, change nothing but the numbers of the other
lines: in the compilation, in the list of opcodes, and in the error if there is one. -/
theorem compile_relined {source source' : String} {f : Nat → Nat} (h : Relined source source' f)
    (config : Config) :
    ((∃ artifacts, compile source config = .ok artifacts) ↔
      ∃ artifacts, compile source' config = .ok artifacts) ∧
    (∀ artifacts artifacts', compile source config = .ok artifacts →
      compile source' config = .ok artifacts' →
      artifacts'.decode = artifacts.decode ∧ artifacts'.disasm = artifacts.disasm ∧
        artifacts'.execute = artifacts.execute) ∧
    (∀ compilation, Compilation.ofSource source config = .ok compilation →
      Compilation.ofSource source' config = .ok (compilation.renumber f)) ∧
    ∀ error, compile source config = .error error →
      compile source' config = .error (error.renumber f) := by
  have hsource {compilation : Compilation} (hcompilation : Compilation.ofSource source config = .ok compilation) :
      Compilation.ofSource source' config = .ok (compilation.renumber f) := by
    rw [h.ofSource_eq config, hcompilation]
    rfl
  have herror (error : Error) (herror : compile source config = .error error) :
      compile source' config = .error (error.renumber f) := by
    rw [compile_eq_error_iff] at herror ⊢
    rcases herror with hcompilation | ⟨compilation, hcompilation, hitems⟩
    · left
      rw [h.ofSource_eq config, hcompilation]
      rfl
    · right
      refine ⟨_, hsource hcompilation, ?_⟩
      rw [Compilation.generate_renumber, hitems]
      rfl
  have hok {artifacts : PerArtifact String} (hartifacts : compile source config = .ok artifacts) :
      ∃ opcodes, compile source' config = .ok { artifacts with opcodes } := by
    obtain ⟨compilation, items, hcompilation, hitems, rfl⟩ := compile_eq_ok_iff.mp hartifacts
    have hitems' := Compilation.generate_renumber (f := f) compilation config
    rw [hitems] at hitems'
    exact ⟨_, compile_eq_ok_iff.mpr ⟨_, _, hsource hcompilation, hitems', rfl⟩⟩
  refine ⟨⟨fun ⟨_, hartifacts⟩ => ?_, fun ⟨_, hartifacts'⟩ => ?_⟩, fun artifacts artifacts' h₁ h₂ => ?_,
    fun _ => hsource, herror⟩
  · obtain ⟨_, hartifacts'⟩ := hok hartifacts
    exact ⟨_, hartifacts'⟩
  · cases hresult : compile source config with
    | ok artifacts => exact ⟨artifacts, rfl⟩
    | error error =>
      rw [herror error hresult] at hartifacts'
      cases hartifacts'
  · obtain ⟨_, hartifacts'⟩ := hok h₁
    rw [h₂] at hartifacts'
    cases hartifacts'
    exact ⟨rfl, rfl, rfl⟩

/-- A description that declares an opcode twice. -/
def twiceSource : String :=
  "NOP - - \"code[32]\" - \"\"" ++ "\n" ++ "NOP - - \"0000000000000001\" - \"\"\n"

/-- The same with a comment between the two, and a carriage return. -/
def spacedTwiceSource : String :=
  "NOP - - \"code[32]\" - \"\"" ++ "\r\n" ++ "  # again" ++ "\n" ++ "NOP - - \"0000000000000001\" - \"\"\n"

theorem compile_relined_twiceSource :
    Relined twiceSource spacedTwiceSource (lineAfterInsert 1) ∧
      compile twiceSource {} = .error (.duplicateOpcode 2 "NOP" 1) ∧
      compile spacedTwiceSource {} = .error (.duplicateOpcode 3 "NOP" 1) := by
  have hreturn := Relined.carriageReturn "NOP - - \"code[32]\" - \"\"" "NOP - - \"0000000000000001\" - \"\"\n"
  have hcomment := @Inserted.between ("NOP - - \"code[32]\" - \"\"" ++ "\r\n") "  # again"
    "NOP - - \"0000000000000001\" - \"\"\n" (.inr (by decide)) ⟨by decide, by decide⟩
  have hrelined : Relined twiceSource spacedTwiceSource (lineAfterInsert 1) :=
    hreturn.trans (.insert hcomment)
  have hsource : compile twiceSource {} = .error (.duplicateOpcode 2 "NOP" 1) :=
    compile_eq_error_iff.mpr (.inl (by decide +kernel))
  exact ⟨hrelined, hsource, (compile_relined hrelined {}).2.2.2 _ hsource⟩

end IsaForge
