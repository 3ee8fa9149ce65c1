import IsaForge.Proofs.Accepted

/-!
The names of the enumeration. An opcode becomes an identifier in two steps: its dots become underscores, which is where a
table looks for repeated opcodes, and then keywords are marked as raw or get an underscore. The second step keeps two names
apart unless one of them is a name that cannot be raw and the other is that name with an underscore
(`Code.eq_of_identText_eq`). So the names of the enumeration are distinct exactly if the table has no such pair
(`Code.nodup_map_identText_iff`).
-/

namespace IsaForge

open Code

/-! ### Identifiers -/

namespace Code

theorem identText_cases (name : String) :
    (name ∈ Lexer.neverRaw ∧ identText name = name ++ "_") ∨
      (name ∉ Lexer.neverRaw ∧ name ∈ Trees.keywords ∧ identText name = "r#" ++ name) ∨
      (name ∉ Lexer.neverRaw ∧ identText name = name) := by
  rw [identText]
  simp only [List.contains_iff_mem]
  by_cases hnever : name ∈ Lexer.neverRaw
  · exact .inl ⟨hnever, if_pos hnever⟩
  · rw [if_neg hnever]
    by_cases hkeyword : name ∈ Trees.keywords
    · exact .inr (.inl ⟨hnever, hkeyword, if_pos hkeyword⟩)
    · exact .inr (.inr ⟨hnever, if_neg hkeyword⟩)

theorem underscored_notMem_keywords :
    ∀ name ∈ Lexer.neverRaw, name ++ "_" ∉ Lexer.neverRaw ∧ name ++ "_" ∉ Trees.keywords := by
  decide

theorem identText_underscored {name : String} (h : name ∈ Lexer.neverRaw) :
    identText (name ++ "_") = identText name := by
  obtain ⟨hnever, hkeyword⟩ := underscored_notMem_keywords name h
  rw [identText, identText]
  simp only [List.contains_iff_mem]
  rw [if_neg hnever, if_neg hkeyword, if_pos h]

theorem ne_underscored (name : String) : name ≠ name ++ "_" := by
  intro h
  have hlength := congrArg String.length h
  rw [String.length_append] at hlength
  exact absurd hlength (Nat.ne_of_lt (Nat.lt_add_of_pos_right (by decide)))

theorem hash_mem_raw (name : String) : '#' ∈ ("r#" ++ name).toList := by
  rw [String.toList_append]
  exact List.mem_append_left _ (by decide)

/-- A raw identifier is the identifier of one name without the marker of raw ones. -/
theorem identText_eq_raw {a b : String} (ha : '#' ∉ a.toList) (h : identText a = "r#" ++ b) : a = b := by
  have hhash : '#' ∈ (identText a).toList := by
    rw [h]
    exact hash_mem_raw b
  rcases identText_cases a with ⟨_, htext⟩ | ⟨_, _, htext⟩ | ⟨_, htext⟩
  · rw [htext, String.toList_append, List.mem_append] at hhash
    rcases hhash with hhash | hhash
    · exact absurd hhash ha
    · exact absurd hhash (by decide)
  · rw [htext] at h
    exact String.append_right_inj _ |>.mp h
  · rw [htext] at hhash
    exact absurd hhash ha

theorem eq_of_identText_eq {a b : String} (ha : '#' ∉ a.toList) (hb : '#' ∉ b.toList)
    (h : identText a = identText b) :
    a = b ∨ (a ∈ Lexer.neverRaw ∧ b = a ++ "_") ∨ (b ∈ Lexer.neverRaw ∧ a = b ++ "_") := by
  rcases identText_cases a with ⟨hnever, htext⟩ | ⟨_, _, htext⟩ | ⟨_, htext⟩
  · rcases identText_cases b with ⟨_, htext'⟩ | ⟨_, _, htext'⟩ | ⟨_, htext'⟩
    · rw [htext, htext'] at h
      exact .inl (String.append_left_inj _ |>.mp h)
    · rw [htext'] at h
      exact .inl (identText_eq_raw ha h)
    · rw [htext, htext'] at h
      exact .inr (.inl ⟨hnever, h.symm⟩)
  · rw [htext] at h
    exact .inl (identText_eq_raw hb h.symm).symm
  · rcases identText_cases b with ⟨hnever', htext'⟩ | ⟨_, _, htext'⟩ | ⟨_, htext'⟩
    · rw [htext, htext'] at h
      exact .inr (.inr ⟨hnever', h⟩)
    · rw [htext'] at h
      exact .inl (identText_eq_raw ha h)
    · rw [htext, htext'] at h
      exact .inl h

/-- Identifiers keep names apart, but for a name that cannot be raw and the same name with an underscore. -/
theorem nodup_map_identText_iff {names : List String} (hnodup : names.Nodup)
    (hhash : ∀ name ∈ names, '#' ∉ name.toList) :
    (names.map identText).Nodup ↔
      ∀ name ∈ Lexer.neverRaw, name ∈ names → name ++ "_" ∉ names := by
  rw [List.nodup_map_iff_inj_on hnodup]
  constructor
  · intro hinj name hnever hname hunderscored
    exact ne_underscored name (hinj _ hname _ hunderscored (identText_underscored hnever).symm)
  · intro hclash a ha b hb h
    rcases eq_of_identText_eq (hhash a ha) (hhash b hb) h with heq | ⟨hnever, rfl⟩ | ⟨hnever, rfl⟩
    · exact heq
    · exact absurd hb (hclash a hnever ha)
    · exact absurd ha (hclash b hnever hb)

end Code

/-! ### Identifiers of a table -/

namespace Table

/-- The identifiers of all opcodes of a table, before keywords are told apart. -/
def idents (table : Table) : List String :=
  table.entries.map Entry.ident

theorem idents_eq (table : Table) :
    table.idents = "ZERO" :: table.instructions.map Instruction.ident ++ ["ILLEGAL", "UNKNOWN"] := by
  rw [idents, entries, List.map_append, List.map_cons, List.map_map]
  rfl

theorem WellFormed.nodup_idents {table : Table} (H : table.WellFormed) : table.idents.Nodup := by
  have hsentinel (sentinel : Sentinel) :
      sentinel.name ∉ table.instructions.map Instruction.ident := by
    intro hmem
    obtain ⟨i, hi, hident⟩ := List.mem_map.mp hmem
    exact H.unreserved i hi sentinel hident.symm
  have hzero := hsentinel .zero
  have hillegal := hsentinel .illegal
  have hunknown := hsentinel .unknown
  rw [idents_eq, List.nodup_append, List.nodup_cons]
  refine ⟨⟨hzero, H.nodup⟩, by decide, ?_⟩
  intro a ha b hb
  rcases List.mem_cons.mp ha with rfl | ha
  · revert b
    decide
  · rintro rfl
    simp only [List.mem_cons, List.not_mem_nil, or_false] at hb
    rcases hb with rfl | rfl
    · exact hillegal ha
    · exact hunknown ha

theorem hash_notMem_identOf {opcode : String} (h : ∀ c ∈ opcode.toList, Record.isOpcodeChar c = true) :
    '#' ∉ (identOf opcode).toList := by
  rw [identOf, String.toList_ofList]
  intro hmem
  obtain ⟨c, hc, heq⟩ := List.mem_map.mp hmem
  split at heq
  · exact absurd heq (by decide)
  · subst heq
    exact absurd (h '#' hc) (by decide)

theorem Describes.hash_notMem_idents {records : List Record} {controlFlow : List String}
    {table : Table} {resolved : List Instruction} (H : Describes records controlFlow table resolved)
    (hchars : ∀ record ∈ records, ∀ c ∈ record.opcode.toList, Record.isOpcodeChar c = true) :
    ∀ name ∈ table.idents, '#' ∉ name.toList := by
  intro name hname
  obtain ⟨entry, hentry, rfl⟩ := List.mem_map.mp hname
  cases entry with
  | sentinel sentinel => cases sentinel <;> decide
  | instruction i =>
    have hi : i ∈ table.instructions := by
      simpa [entries] using hentry
    obtain ⟨record, hrecord, hresolves⟩ := H.exists_record hi
    rw [Entry.ident, hresolves.ident_eq]
    exact hash_notMem_identOf (hchars record hrecord)

end Table

/-! ### The enumeration -/

namespace OpcodeList

/-- The name that a token is. -/
def identifier? : Tree → Option String
  | .ident name => some name
  | _ => none

/-- The names that an enumeration declares: those that stand between its braces, outside of any other brackets. -/
def declaredNames (item : List Tree) : List String :=
  match item.getLast? with
  | some (.group .brace inner) => inner.filterMap identifier?
  | _ => []

theorem filterMap_separated (separator : Char) (pieces : List (List Tree)) :
    (separated separator pieces).filterMap identifier? =
      pieces.flatMap fun piece => piece.filterMap identifier? := by
  induction pieces with
  | nil => rfl
  | cons piece pieces ih =>
    cases pieces with
    | nil => simp [separated]
    | cons next pieces =>
      rw [separated] at ih ⊢
      rw [List.intersperse_cons_cons, List.flatten_cons, List.flatten_cons, List.filterMap_append,
        List.filterMap_append, ih, List.flatMap_cons]
      rfl

theorem filterMap_variant (index : Nat) (entry : Entry) :
    (variant index entry).filterMap identifier? = [identText entry.ident] := by
  cases entry <;> rfl

theorem declaredNames_opcodeItem (table : Table) :
    declaredNames (opcodeItem table) = variantNames table := by
  rw [declaredNames, opcodeItem, braces, List.getLast?_concat]
  dsimp only
  rw [filterMap_separated, List.flatMap_map]
  simp only [filterMap_variant]
  rw [variantNames, ← List.map_eq_flatMap]
  conv_rhs => rw [← List.zipIdx_map_fst 0 table.entries, List.map_map]
  rfl

theorem variantNames_eq (table : Table) : variantNames table = table.idents.map identText := by
  rw [variantNames, Table.idents, List.map_map]
  rfl

theorem items_eq (table : Table) (classification : Classification) :
    items table classification = opcodeItem table :: (items table classification).tail := by
  rw [items, List.cons_append, List.tail_cons]

theorem exists_opcodes_eq {compilation : Compilation} {config : Config}
    {items : PerArtifact (List (List Tree))} (h : compilation.generate config = .ok items) :
    ∃ later, (items.map artifactText).opcodes = artifactText (opcodeItem compilation.table :: later) := by
  obtain ⟨_, _, hopcodes, _⟩ := Compilation.generate_eq_ok_iff.mp h
  rw [items_eq] at hopcodes
  exact ⟨_, congrArg artifactText hopcodes⟩

theorem declaredNames_eq (table : Table) :
    declaredNames (opcodeItem table) = table.idents.map identText := by
  rw [declaredNames_opcodeItem, variantNames_eq]

/-- The enumeration of a description that compiles is the first item of its opcodes, and its names are the identifiers of the
table with keywords told apart. They are distinct unless the table has both a name that cannot be raw and that name with an
underscore. -/
theorem nodup_declaredNames_iff {source : String} {config : Config} {artifacts : PerArtifact String}
    (h : compile source config = .ok artifacts) :
    ∃ compilation later, Compilation.ofSource source config = .ok compilation ∧
      artifacts.opcodes = artifactText (opcodeItem compilation.table :: later) ∧
      declaredNames (opcodeItem compilation.table) = compilation.table.idents.map identText ∧
      ((declaredNames (opcodeItem compilation.table)).Nodup ↔
        ∀ name ∈ Lexer.neverRaw, name ∈ compilation.table.idents →
          name ++ "_" ∉ compilation.table.idents) := by
  obtain ⟨compilation, items, hcompilation, hitems, rfl⟩ := compile_eq_ok_iff.mp h
  obtain ⟨later, hopcodes⟩ := exists_opcodes_eq hitems
  obtain ⟨_, records, hrecords, htable, _⟩ := Compilation.ofSource_eq_ok_iff.mp hcompilation
  obtain ⟨_, H⟩ := Table.ofRecords_describes htable
  refine ⟨compilation, later, hcompilation, hopcodes, declaredNames_eq _, ?_⟩
  rw [declaredNames_eq]
  exact nodup_map_identText_iff H.wellFormed.nodup_idents
    (H.hash_notMem_idents (Record.parseSource_opcode hrecords))

/-- Opcodes that are keywords of both kinds. -/
def keywordSource : String :=
  "self - I \"00000000000000000000000000000001\" - \"\"\nloop - I \"00000000000000000000000000000010\" - \"\"\n"

theorem nodup_declaredNames_keywordSource :
    ∃ artifacts compilation later, compile keywordSource {} = .ok artifacts ∧
      Compilation.ofSource keywordSource {} = .ok compilation ∧
      artifacts.opcodes = artifactText (opcodeItem compilation.table :: later) ∧
      declaredNames (opcodeItem compilation.table) = ["ZERO", "self_", "r#loop", "ILLEGAL", "UNKNOWN"] ∧
      (declaredNames (opcodeItem compilation.table)).Nodup := by
  obtain ⟨compilation, items, hcompile, hcompilation, _, hidents⟩ := exists_compile keywordSource {}
    (fun c => decide (c.table.idents = ["ZERO", "self", "loop", "ILLEGAL", "UNKNOWN"])) (by decide +kernel)
  have hidents := of_decide_eq_true hidents
  obtain ⟨other, later, hother, htext, hnames, hiff⟩ := nodup_declaredNames_iff hcompile
  obtain rfl : other = compilation := Except.ok.inj (hother.symm.trans hcompilation)
  refine ⟨_, other, later, hcompile, hother, htext, ?_, hiff.mpr ?_⟩
  · rw [hnames, hidents]
    decide
  · rw [hidents]
    decide

/-- Two opcodes that become the same name of the enumeration. -/
def clashingSource : String :=
  "self - I \"00000000000000000000000000000001\" - \"\"\nself_ - I \"00000000000000000000000000000010\" - \"\"\n"

theorem declaredNames_clashingSource :
    ∃ artifacts compilation later, compile clashingSource {} = .ok artifacts ∧
      Compilation.ofSource clashingSource {} = .ok compilation ∧
      artifacts.opcodes = artifactText (opcodeItem compilation.table :: later) ∧
      declaredNames (opcodeItem compilation.table) = ["ZERO", "self_", "self_", "ILLEGAL", "UNKNOWN"] ∧
      ¬ (declaredNames (opcodeItem compilation.table)).Nodup := by
  obtain ⟨compilation, items, hcompile, hcompilation, hitems, hidents⟩ := exists_compile clashingSource {}
    (fun c => decide (c.table.idents = ["ZERO", "self", "self_", "ILLEGAL", "UNKNOWN"])) (by decide +kernel)
  have hidents := of_decide_eq_true hidents
  obtain ⟨later, htext⟩ := exists_opcodes_eq hitems
  have hnames : declaredNames (opcodeItem compilation.table) =
      ["ZERO", "self_", "self_", "ILLEGAL", "UNKNOWN"] := by
    rw [declaredNames_eq, hidents]
    decide
  refine ⟨_, compilation, later, hcompile, hcompilation, htext, hnames, ?_⟩
  rw [hnames]
  decide

end OpcodeList

end IsaForge
