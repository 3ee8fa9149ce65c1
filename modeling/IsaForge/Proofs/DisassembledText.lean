import IsaForge.Proofs.TemplatePieces

/-!
What the generated disassembler shows. A template is read run by run, and its words are replaced by operands
(`Disassembly.addPieces_adds`). The code of an instruction comes to its opcode, the filled template and the immediate;
there is none if a word stands for an operand that is not there.
-/

namespace IsaForge

/-! ### Words of a template -/

namespace Template

open Grammar (takeWhile_run dropWhile_run)

/-- The maximal runs of word characters, in order. -/
def words : List Char → List String
  | [] => []
  | c :: cs =>
    if isWordChar c then String.ofList (c :: cs.takeWhile isWordChar) :: words (cs.dropWhile isWordChar)
    else words cs
termination_by cs => cs.length
decreasing_by
  · exact Nat.lt_succ_of_le (List.length_dropWhile_le isWordChar cs)
  · exact Nat.lt_succ_self cs.length

/-- A template in which some words are replaced and all else stays as it is. -/
def fill (replacement? : String → Option String) : List Char → List Char
  | [] => []
  | c :: cs =>
    if isWordChar c then
      let word := String.ofList (c :: cs.takeWhile isWordChar)
      ((replacement? word).getD word).toList ++ fill replacement? (cs.dropWhile isWordChar)
    else c :: fill replacement? cs
termination_by cs => cs.length
decreasing_by
  · exact Nat.lt_succ_of_le (List.length_dropWhile_le isWordChar cs)
  · exact Nat.lt_succ_self cs.length

theorem words_run {kind : Bool} {run rest : List Char} (h : IsRun kind run rest) :
    words (run ++ rest) = if kind then String.ofList run :: words rest else words rest := by
  cases kind with
  | true =>
    obtain ⟨c, cs, rfl⟩ := List.exists_cons_of_ne_nil h.nonempty
    obtain ⟨hc, hcs⟩ := List.forall_mem_cons.mp h.all
    rw [List.cons_append, words, if_pos hc, takeWhile_run hcs h.stops_word, dropWhile_run hcs h.stops_word]
    rfl
  | false =>
    have hall := h.all
    clear h
    induction run with
    | nil => rfl
    | cons c run ih =>
      obtain ⟨hc, hrun⟩ := List.forall_mem_cons.mp hall
      rw [List.cons_append, words, if_neg (by simp [hc]), ih hrun]
      rfl

theorem fill_run {kind : Bool} {run rest : List Char} (h : IsRun kind run rest)
    (replacement? : String → Option String) :
    fill replacement? (run ++ rest) =
      (if kind then ((replacement? (String.ofList run)).getD (String.ofList run)).toList else run) ++
        fill replacement? rest := by
  cases kind with
  | true =>
    obtain ⟨c, cs, rfl⟩ := List.exists_cons_of_ne_nil h.nonempty
    obtain ⟨hc, hcs⟩ := List.forall_mem_cons.mp h.all
    rw [List.cons_append, fill, if_pos hc, takeWhile_run hcs h.stops_word, dropWhile_run hcs h.stops_word]
    rfl
  | false =>
    have hall := h.all
    clear h
    induction run with
    | nil => rfl
    | cons c run ih =>
      obtain ⟨hc, hrun⟩ := List.forall_mem_cons.mp hall
      rw [List.cons_append, fill, if_neg (by simp [hc]), ih hrun]
      rfl

end Template

/-! ### Operands -/

namespace Instruction

/-- Whether a word stands for an operand that an instruction does not have. -/
def lacks (instruction : Instruction) (word : String) : Bool :=
  (Placeholder.ofName? word).any fun placeholder => !placeholder.isPresent instruction

theorem lacks_eq_true_iff (instruction : Instruction) {word : String} : instruction.lacks word = true ↔
    ∃ placeholder, Placeholder.ofName? word = some placeholder ∧ placeholder.isPresent instruction = false := by
  simp only [lacks, Option.any_eq_true, Bool.not_eq_true']

variable (instruction : Instruction) (names : RegisterClass → List String) (insn : DecodedFields)

/-- What is shown in place of a word: a register by its name, floating-point if the word says so, and the immediate. -/
def operandText? (word : String) : Option String :=
  match Placeholder.ofName? word with
  | none => none
  | some (.register slot registerClass?) =>
    let registerClass := registerClass?.getD (instruction.slots.get slot).registerClass
    some (Disassembly.registerName names insn registerClass slot)
  | some .immediate => some (Text.signedDecimal insn.immediate.toInt)

/-- An instruction in assembly syntax: the opcode, the operands and again the immediate. -/
def assemblyText : String :=
  instruction.opcode ++
    (if instruction.assembly = "" || instruction.assembly = "-" then ""
      else " " ++ String.ofList (Template.fill (instruction.operandText? names insn) instruction.assembly.toList)) ++
    (if instruction.immediate.isSome then " (" ++ Text.hexadecimal (insn.immediate.toInt % 2 ^ 32).toNat 1 ++ ")"
      else "")

end Instruction

namespace Disassembly

variable {instruction : Instruction}

theorem operandText?_of_ofName? {word : String} {placeholder : Placeholder}
    (h : Placeholder.ofName? word = some placeholder) (names : RegisterClass → List String) (insn : DecodedFields) :
    instruction.operandText? names insn word = some (shownOf names insn (argumentOf instruction placeholder)) := by
  rw [Instruction.operandText?, h]
  cases placeholder <;> rfl

/-- A part of a template is added to what is shown: there is an error for the first of its words that stands for an
operand that is not there, and else the part is shown as it is filled. -/
def Adds (instruction : Instruction) (part : List Char) (shown : Disassembly) (result : Except Error Disassembly) :
    Prop :=
  match (Template.words part).find? instruction.lacks with
  | some word => result = .error (instruction.absent .assembly word)
  | none => ∃ shown', result = .ok shown' ∧ ∀ names insn text, shown.Shows names insn text →
      shown'.Shows names insn (text ++ String.ofList (Template.fill (instruction.operandText? names insn) part))

theorem Adds.nil (instruction : Instruction) (shown : Disassembly) : Adds instruction [] shown (.ok shown) := by
  rw [Adds, Template.words]
  refine ⟨shown, rfl, fun names insn text h => ?_⟩
  rw [Template.fill, String.ofList_nil, String.append_empty]
  exact h

/-- A run that is shown, before a part. -/
theorem Adds.run {run rest : List Char} {shown more : Disassembly} {result : Except Error Disassembly}
    (h : Adds instruction rest more result)
    (hwords : (Template.words (run ++ rest)).find? instruction.lacks = (Template.words rest).find? instruction.lacks)
    (hmore : ∀ names insn text, shown.Shows names insn text → ∃ piece, more.Shows names insn (text ++ piece) ∧
      Template.fill (instruction.operandText? names insn) (run ++ rest) =
        piece.toList ++ Template.fill (instruction.operandText? names insn) rest) :
    Adds instruction (run ++ rest) shown result := by
  rw [Adds] at h ⊢
  rw [hwords]
  split at h
  · exact h
  · obtain ⟨shown', hresult, hshows⟩ := h
    refine ⟨shown', hresult, fun names insn text htext => ?_⟩
    obtain ⟨piece, hpiece, hfill⟩ := hmore names insn text htext
    rw [hfill, String.ofList_append, String.ofList_toList, ← String.append_assoc]
    exact hshows names insn _ hpiece

theorem addPieces_adds (instruction : Instruction) (part : List Char) (shown : Disassembly) :
    Adds instruction part shown (addPieces instruction shown (Template.pieces (String.ofList part))) := by
  induction part using Template.runs_induction generalizing shown with
  | nil => exact .nil instruction shown
  | run kind run rest hrun ih =>
    rw [Template.pieces_run hrun, addPieces]
    cases kind with
    | false =>
      refine (ih (shown.verbatim (String.ofList run))).run ?_ fun names insn text h => ⟨_, h.verbatim _, ?_⟩
      · rw [Template.words_run hrun]
        rfl
      · rw [Template.fill_run hrun, String.toList_ofList]
        rfl
    | true =>
      rw [if_pos rfl]
      cases hname : Placeholder.ofName? (String.ofList run) with
      | none =>
        have hlacks : instruction.lacks (String.ofList run) = false := by rw [Instruction.lacks, hname]; rfl
        refine (ih (shown.verbatim (String.ofList run))).run ?_ fun names insn text h => ⟨_, h.verbatim _, ?_⟩
        · rw [Template.words_run hrun]
          exact List.find?_cons_of_neg (by simp [hlacks])
        · have hoperand : instruction.operandText? names insn (String.ofList run) = none := by
            rw [Instruction.operandText?, hname]
          rw [Template.fill_run hrun, hoperand]
          rfl
      | some placeholder =>
        by_cases hpresent : placeholder.isPresent instruction = true
        · have hlacks : instruction.lacks (String.ofList run) = false := by
            rw [Instruction.lacks, hname, Option.any_some, hpresent]
            rfl
          dsimp only
          rw [if_pos hpresent]
          refine (ih (shown.argument (argumentOf instruction placeholder))).run ?_ fun names insn text h =>
            ⟨_, h.argument _, ?_⟩
          · rw [Template.words_run hrun]
            exact List.find?_cons_of_neg (by simp [hlacks])
          · rw [Template.fill_run hrun, operandText?_of_ofName? hname]
            rfl
        · have hlacks : instruction.lacks (String.ofList run) = true := by
            rw [Instruction.lacks, hname, Option.any_some, Bool.eq_false_iff.mpr hpresent]
            rfl
          have hfind : (Template.words (run ++ rest)).find? instruction.lacks = some (String.ofList run) := by
            rw [Template.words_run hrun]
            exact List.find?_cons_of_pos hlacks
          dsimp only
          rw [if_neg hpresent, Adds, hfind]

/-- The part of an instruction before the immediate: the opcode, and the template if there is one. -/
def beforeImmediate (instruction : Instruction) : Except Error Disassembly :=
  let opcode : Disassembly := ⟨Template.escape instruction.opcode, []⟩
  if instruction.assembly.isEmpty || instruction.assembly = "-" then .ok opcode
  else addPieces instruction (opcode.verbatim " ") (Template.pieces instruction.assembly)

/-- What is shown, with the immediate behind it if there is one. -/
def withImmediate (instruction : Instruction) (shown : Disassembly) : Disassembly :=
  if instruction.immediate.isSome then ((shown.verbatim " (").argument .immediateHex).verbatim ")" else shown

theorem ofInstruction_eq (instruction : Instruction) :
    ofInstruction instruction = (beforeImmediate instruction).map (withImmediate instruction) := by
  unfold ofInstruction beforeImmediate
  dsimp only
  split
  · rfl
  · cases addPieces instruction _ (Template.pieces instruction.assembly) <;> rfl

theorem shows_opcode (opcode : String) (names : RegisterClass → List String) (insn : DecodedFields) :
    (⟨Template.escape opcode, []⟩ : Disassembly).Shows names insn opcode := by
  intro rest values
  rw [Template.escape, String.toList_ofList]
  exact formatChars_escape opcode.toList rest values

/-- The low half of the immediate is its remainder modulo the size of a word. -/
theorem toNat_setWidth_immediate (immediate : BitVec 64) :
    (immediate.setWidth 32).toNat = (immediate.toInt % 2 ^ 32).toNat := by
  rw [BitVec.toNat_setWidth, BitVec.toInt_eq_toNat_cond]
  split <;> omega

theorem shows_withImmediate {shown : Disassembly} {names : RegisterClass → List String} {insn : DecodedFields}
    {text : String} (h : shown.Shows names insn text) (instruction : Instruction) :
    (withImmediate instruction shown).Shows names insn
      (text ++ if instruction.immediate.isSome then
        " (" ++ Text.hexadecimal (insn.immediate.toInt % 2 ^ 32).toNat 1 ++ ")" else "") := by
  unfold withImmediate
  split
  · have himmediate := ((h.verbatim " (").argument .immediateHex).verbatim ")"
    rw [shownOf, toNat_setWidth_immediate] at himmediate
    simpa only [String.append_assoc] using himmediate
  · rwa [String.append_empty]

/-- A template that is left out has no words. -/
theorem words_of_leftOut {assembly : String} (h : assembly = "" ∨ assembly = "-") :
    Template.words assembly.toList = [] := by
  rcases h with rfl | rfl
  · show Template.words [] = []
    rw [Template.words]
  · show Template.words ['-'] = []
    rw [Template.words, if_neg (by decide), Template.words]

theorem ofInstruction_spec (instruction : Instruction) :
    match (Template.words instruction.assembly.toList).find? instruction.lacks with
    | some word => ofInstruction instruction = .error (instruction.absent .assembly word)
    | none => ∃ shown, ofInstruction instruction = .ok shown ∧
        ∀ names insn, shown.Shows names insn (instruction.assemblyText names insn) := by
  rw [ofInstruction_eq, beforeImmediate]
  by_cases hleft : instruction.assembly = "" ∨ instruction.assembly = "-"
  · rw [words_of_leftOut hleft, if_pos (by simpa using hleft)]
    refine ⟨_, rfl, fun names insn => ?_⟩
    rw [Instruction.assemblyText, if_pos (by simpa using hleft), String.append_empty]
    exact shows_withImmediate (shows_opcode _ names insn) instruction
  · rw [if_neg (by simpa using hleft)]
    have hadds := addPieces_adds instruction instruction.assembly.toList
      ((⟨Template.escape instruction.opcode, []⟩ : Disassembly).verbatim " ")
    rw [Adds, String.ofList_toList] at hadds
    split at hadds
    · rw [hadds]
      rfl
    · obtain ⟨shown, hresult, hshows⟩ := hadds
      rw [hresult]
      refine ⟨_, rfl, fun names insn => ?_⟩
      rw [Instruction.assemblyText, if_neg (by simpa using hleft), ← String.append_assoc]
      have hopcode := (shows_opcode instruction.opcode names insn).verbatim " "
      exact shows_withImmediate (hshows names insn _ hopcode) instruction

end Disassembly

/-- The code of an instruction. It is there unless a word of the template stands for an operand that the instruction
does not have, and comes to the instruction in assembly syntax. -/
theorem Disassembler.arm_shows (instruction : Instruction) :
    ((∃ shown, Disassembly.ofInstruction instruction = .ok shown) ↔
      ∀ word ∈ Template.words instruction.assembly.toList, ∀ placeholder, Placeholder.ofName? word = some placeholder →
        placeholder.isPresent instruction = true) ∧
    (∀ word, (Template.words instruction.assembly.toList).find? instruction.lacks = some word →
      Disassembly.ofInstruction instruction = .error (instruction.absent .assembly word)) ∧
    ∀ shown, Disassembly.ofInstruction instruction = .ok shown →
      Disassembler.arm instruction =
        .ok (Code.opcodePath instruction.ident ++ Code.fixed "=>" ++ shown.trees ++ Code.fixed ",") ∧
      ∀ names insn, Disassembly.textOf? names insn shown.trees = some (instruction.assemblyText names insn) := by
  have hspec := Disassembly.ofInstruction_spec instruction
  refine ⟨?_, fun word hword => ?_, fun shown hshown => ⟨?_, fun names insn => ?_⟩⟩
  · split at hspec
    · next word hfind =>
      have hword := List.find?_some hfind
      have hmem := List.mem_of_find?_eq_some hfind
      obtain ⟨placeholder, hname, habsent⟩ := instruction.lacks_eq_true_iff.mp hword
      refine ⟨fun ⟨shown, hshown⟩ => ?_, fun hall => ?_⟩
      · rw [hspec] at hshown
        cases hshown
      · rw [hall word hmem placeholder hname] at habsent
        cases habsent
    · next hfind =>
      obtain ⟨shown, hshown, _⟩ := hspec
      refine ⟨fun _ word hmem placeholder hname => ?_, fun _ => ⟨shown, hshown⟩⟩
      have hword := List.find?_eq_none.mp hfind word hmem
      by_contra habsent
      exact hword (instruction.lacks_eq_true_iff.mpr ⟨placeholder, hname, Bool.eq_false_iff.mpr habsent⟩)
  · rwa [hword] at hspec
  · rw [arm, hshown]
    rfl
  · split at hspec
    · rw [hspec] at hshown
      cases hshown
    · obtain ⟨shown', hshown', hshows⟩ := hspec
      rw [hshown'] at hshown
      cases hshown
      exact (hshows names insn).textOf?_trees

/-- A load whose template has braces beside its placeholders. -/
def loadInstruction : Instruction where
  opcode := "FLW"
  line := 3
  provenance := {}
  assembly := "fd,\x7bimmed\x7d(rs1)"
  attributes := []
  tokens := {}
  matchValue := 0x2007
  mask := 0x707f
  width := .standard
  slots := ⟨.field .floatingPoint ⟨11, 7⟩ 0, .field .generalPurpose ⟨19, 15⟩ 0, .none, .none⟩
  immediate := some ⟨[⟨20, 12, 0, true⟩], true⟩
  action := ""

/-- The decoded fields of one such load. -/
def loadFields : DecodedFields := ⟨"FLW", ⟨1, 2, 255, 255⟩, -4⟩

/-- The first names of the registers of each class. -/
def firstNames : RegisterClass → List String
  | .generalPurpose => ["zero", "ra", "sp"]
  | .floatingPoint => ["ft0", "ft1", "ft2"]

/-- The braces of the template stay, and the immediate is shown twice. -/
theorem Disassembler.arm_shows_loadInstruction :
    ∃ shown, Disassembly.ofInstruction loadInstruction = .ok shown ∧
      Disassembly.textOf? firstNames loadFields shown.trees = some "FLW ft1,\x7b-4\x7d(sp) (0xfffffffc)" := by
  have hwords : Template.words loadInstruction.assembly.toList = ["fd", "immed", "rs1"] := by decide +kernel
  have htext : loadInstruction.assemblyText firstNames loadFields = "FLW ft1,\x7b-4\x7d(sp) (0xfffffffc)" := by
    decide +kernel
  obtain ⟨hiff, _, hshows⟩ := Disassembler.arm_shows loadInstruction
  rw [hwords] at hiff
  obtain ⟨shown, hshown⟩ := hiff.mpr (by
    simp only [List.forall_mem_cons]
    refine ⟨?_, ?_, ?_, nofun⟩
    all_goals
      intro placeholder hname
      cases hname
      rfl)
  exact ⟨shown, hshown, htext ▸ (hshows shown hshown).2 firstNames loadFields⟩

end IsaForge
