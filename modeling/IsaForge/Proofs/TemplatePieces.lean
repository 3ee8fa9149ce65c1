import IsaForge.Proofs.FormatText

/-!
The pieces of a template. Every template is built from maximal runs of word characters and of others
(`runs_induction`), and the one pass over it that `Template.pieces` makes cuts it into these runs (`pieces_run`). `IsCut`
says what a division into words and the text between them has to be; no template has a second one (`isCut_iff`). A text
that is escaped for a format text is unescaped again.
-/

namespace IsaForge.Template

open Grammar (Stops stops_dropWhile)

/-! ### Runs -/

/-- A run of characters of one kind, and what follows it. -/
structure IsRun (kind : Bool) (run rest : List Char) : Prop where
  nonempty : run ≠ []
  all : ∀ c ∈ run, isWordChar c = kind
  stops : Stops (isWordChar · == kind) rest

theorem IsRun.stops_word {run rest : List Char} (h : IsRun true run rest) : Stops isWordChar rest := by
  intro c hc
  simpa using h.stops c hc

/-- Every template is built from maximal runs. -/
theorem runs_induction {motive : List Char → Prop} (nil : motive [])
    (run : ∀ kind run rest, IsRun kind run rest → motive rest → motive (run ++ rest)) (cs : List Char) :
    motive cs := by
  induction hlength : cs.length using Nat.strongRecOn generalizing cs with
  | ind length ih =>
    cases cs with
    | nil => exact nil
    | cons c cs =>
      have htail := run (isWordChar c) (c :: cs.takeWhile (isWordChar · == isWordChar c))
        (cs.dropWhile (isWordChar · == isWordChar c)) ⟨List.cons_ne_nil _ _, ?_, stops_dropWhile _ cs⟩
        (ih _ ?_ _ rfl)
      · rwa [List.cons_append, List.takeWhile_append_dropWhile] at htail
      · refine List.forall_mem_cons.mpr ⟨rfl, fun d hd => ?_⟩
        have hsame := List.mem_takeWhile_imp hd
        exact beq_iff_eq.mp hsame
      · rw [← hlength]
        exact Nat.lt_succ_of_le (List.length_dropWhile_le _ cs)

/-! ### Cutting -/

/-- At a cut it does not matter what was before. -/
theorem cutFrom_nil (inWord : Bool) (cs : List Char) : cutFrom inWord [] cs = cutFrom false [] cs := by
  cases cs <;> simp [cutFrom]

/-- Characters of the kind of the piece are added to it. -/
theorem cutFrom_same {kind : Bool} {run : List Char} (h : ∀ c ∈ run, isWordChar c = kind) (piece rest : List Char) :
    cutFrom kind piece (run ++ rest) = cutFrom kind (run.reverse ++ piece) rest := by
  induction run generalizing piece with
  | nil => rfl
  | cons c run ih =>
    obtain ⟨hc, hrun⟩ := List.forall_mem_cons.mp h
    rw [List.cons_append, cutFrom, hc, if_neg (by simp), ih hrun]
    simp

/-- A piece ends before a character of the other kind, and at the end of the text. -/
theorem cutFrom_stops {kind : Bool} {piece rest : List Char} (hpiece : piece ≠ [])
    (h : Stops (isWordChar · == kind) rest) :
    cutFrom kind piece rest = (kind, String.ofList piece.reverse) :: cutFrom false [] rest := by
  cases rest with
  | nil => simp [cutFrom, hpiece]
  | cons c rest =>
    have hc : isWordChar c ≠ kind := by simpa using h c rfl
    simp [cutFrom, hpiece, hc]

theorem pieces_run {kind : Bool} {run rest : List Char} (h : IsRun kind run rest) :
    pieces (String.ofList (run ++ rest)) = (kind, String.ofList run) :: pieces (String.ofList rest) := by
  have hreverse : run.reverse ++ [] ≠ [] := by simpa using h.nonempty
  calc
    pieces (String.ofList (run ++ rest)) = cutFrom kind [] (run ++ rest) := by
      rw [pieces, String.toList_ofList, cutFrom_nil kind]
    _ = cutFrom kind (run.reverse ++ []) rest := cutFrom_same h.all [] rest
    _ = (kind, String.ofList run) :: pieces (String.ofList rest) := by
      rw [cutFrom_stops hreverse h.stops, pieces, String.toList_ofList, List.append_nil, List.reverse_reverse]

/-! ### Words and the text between them -/

/-- The ASCII letters, digits and the underscore. -/
def IsWordLetter (c : Char) : Prop :=
  'A' ≤ c ∧ c ≤ 'Z' ∨ 'a' ≤ c ∧ c ≤ 'z' ∨ '0' ≤ c ∧ c ≤ '9' ∨ c = '_'

theorem isWordChar_iff {c : Char} : isWordChar c = true ↔ IsWordLetter c := by
  have hle (a b : Char) : a ≤ b ↔ a.val ≤ b.val := Iff.rfl
  simp only [isWordChar, IsWordLetter, Char.isAlphanum, Char.isAlpha, Char.isUpper, Char.isLower, Char.isDigit,
    Bool.or_eq_true, Bool.and_eq_true, decide_eq_true_eq, beq_iff_eq, or_assoc, ge_iff_le, hle]

/-- A division of a template into words and the text between them. -/
structure IsCut (template : String) (pieces : List (Bool × String)) : Prop where
  nonempty : ∀ piece ∈ pieces, piece.2 ≠ ""
  joined : pieces.flatMap (·.2.toList) = template.toList
  alternating : pieces.IsChain fun first second => first.1 ≠ second.1
  uniform : ∀ piece ∈ pieces, ∀ c ∈ piece.2.toList, piece.1 = true ↔ IsWordLetter c

namespace IsCut

variable {kind : Bool} {run rest : List Char} {template word : String} {pieces : List (Bool × String)}

theorem nil : IsCut "" [] :=
  ⟨nofun, rfl, .nil, nofun⟩

theorem kind_eq (h : IsCut template pieces) {piece : Bool × String} (hpiece : piece ∈ pieces) {c : Char}
    (hc : c ∈ piece.2.toList) : isWordChar c = piece.1 := by
  rw [Bool.eq_iff_iff, isWordChar_iff]
  exact (h.uniform piece hpiece c hc).symm

/-- The first character of a template is of the kind of the first piece. -/
theorem exists_head (h : IsCut template ((kind, word) :: pieces)) :
    ∃ c, template.toList.head? = some c ∧ isWordChar c = kind := by
  have hword : word.toList ≠ [] := by simpa using h.nonempty (kind, word) List.mem_cons_self
  obtain ⟨c, cs, hcs⟩ := List.exists_cons_of_ne_nil hword
  refine ⟨c, ?_, h.kind_eq List.mem_cons_self (by rw [hcs]; exact List.mem_cons_self)⟩
  rw [← h.joined, List.flatMap_cons, hcs]
  rfl

/-- A run goes in front of a division of what follows it. -/
theorem cons (hrun : IsRun kind run rest) (h : IsCut (String.ofList rest) pieces) :
    IsCut (String.ofList (run ++ rest)) ((kind, String.ofList run) :: pieces) where
  nonempty := by
    refine List.forall_mem_cons.mpr ⟨?_, h.nonempty⟩
    simpa using hrun.nonempty
  joined := by
    rw [List.flatMap_cons, h.joined]
    simp
  alternating := by
    cases pieces with
    | nil => exact .singleton _
    | cons piece pieces =>
      refine .cons_cons ?_ h.alternating
      obtain ⟨c, hhead, hc⟩ := h.exists_head
      have hstops : piece.1 ≠ kind := by
        simpa [hc] using hrun.stops c (by rwa [String.toList_ofList] at hhead)
      exact hstops.symm
  uniform := by
    refine List.forall_mem_cons.mpr ⟨fun c hc => ?_, h.uniform⟩
    rw [← isWordChar_iff, hrun.all c (by simpa using hc)]

/-- The first piece is a run, and the others divide what follows it. -/
theorem uncons (h : IsCut template ((kind, word) :: pieces)) :
    ∃ rest, template = String.ofList (word.toList ++ rest) ∧ IsRun kind word.toList rest ∧
      IsCut (String.ofList rest) pieces := by
  have hrest : IsCut (String.ofList (pieces.flatMap (·.2.toList))) pieces := by
    refine ⟨fun piece hpiece => h.nonempty piece (List.mem_cons_of_mem _ hpiece), by simp, ?_,
      fun piece hpiece => h.uniform piece (List.mem_cons_of_mem _ hpiece)⟩
    exact h.alternating.tail
  refine ⟨_, ?_, ⟨?_, ?_, ?_⟩, hrest⟩
  · have hjoined := h.joined
    rw [List.flatMap_cons] at hjoined
    rw [hjoined, String.ofList_toList]
  · simpa using h.nonempty (kind, word) List.mem_cons_self
  · exact fun c hc => h.kind_eq List.mem_cons_self hc
  · intro c hc
    cases pieces with
    | nil => cases hc
    | cons piece pieces =>
      obtain ⟨d, hhead, hd⟩ := hrest.exists_head
      rw [String.toList_ofList] at hhead
      cases hhead.symm.trans hc
      have hne := (List.isChain_cons_cons.mp h.alternating).1
      simpa [hd] using hne.symm

end IsCut

theorem isCut_pieces (cs : List Char) : IsCut (String.ofList cs) (pieces (String.ofList cs)) := by
  induction cs using runs_induction with
  | nil => exact .nil
  | run kind run rest hrun ih =>
    rw [pieces_run hrun]
    exact .cons hrun ih

theorem IsCut.eq_pieces {template : String} {found : List (Bool × String)} (h : IsCut template found) :
    found = pieces template := by
  induction found generalizing template with
  | nil =>
    have hempty : template = "" := by
      rw [← String.ofList_toList (s := template), ← h.joined]
      rfl
    rw [hempty]
    rfl
  | cons piece found ih =>
    obtain ⟨rest, rfl, hrun, hrest⟩ := h.uncons
    rw [pieces_run hrun, ← ih hrest, String.ofList_toList]

theorem isCut_iff {template : String} {found : List (Bool × String)} :
    IsCut template found ↔ found = pieces template := by
  refine ⟨IsCut.eq_pieces, ?_⟩
  rintro rfl
  rw [← String.ofList_toList (s := template)]
  exact isCut_pieces template.toList

example : pieces "rd, é_1" = [(true, "rd"), (false, ", é"), (true, "_1")] := by decide +kernel

/-! ### Escapes -/

theorem unescape_escape (text : String) : unescape (escape text) = text := by
  have hshown : formatChars (escape text).toList [] = some text.toList := by
    simpa [escape, formatChars] using formatChars_escape text.toList [] []
  rw [unescape, undouble_of_formatChars hshown, String.ofList_toList]

/-- The pieces of a template are the one division of it into words and the text between them, and escaping a text loses
nothing. -/
theorem isCut_iff_and_unescape_escape (template text : String) :
    (∀ found, IsCut template found ↔ found = pieces template) ∧ unescape (escape text) = text :=
  ⟨fun _ => isCut_iff, unescape_escape text⟩

end IsaForge.Template
