import IsaForge.Placeholder
import IsaForge.Proofs.Accepted
import IsaForge.Proofs.Digits

/-!
Register numbers. The largest number that a slot can give is checked when its operand is resolved, so that on every word the
number of a register is the number in its bits plus the offset, and never the number that stands for no register
(`Slot.Fits.number?_eq_some_iff`). A decoded word therefore shows a register for each slot that is not empty. Every
register and the immediate are shown behind a blank, and `infix_spaced_iff` says what can be found in a row of such words.
-/

namespace IsaForge

/-! ### Numbers of registers -/

/-- The number in the bits of a range. -/
def BitRange.valueIn (range : BitRange) (word : Word) : Nat :=
  word.toNat / 2 ^ range.lo % 2 ^ (range.hi - range.lo + 1)

/-- The number of the register that a slot stands for in the instruction `word`. -/
def Slot.number? (word : Word) : Slot → Option Nat
  | .none => .none
  | .literal register => some register.toNat
  | .field _ range offset => some (range.valueIn word + offset.toNat)

namespace Slot

theorem toNat_extract_field (registerClass : RegisterClass) (range : BitRange) (offset : Register) (word : Word) :
    (extract word (.field registerClass range offset)).toNat = (range.valueIn word + offset.toNat) % 256 := by
  rw [extract, BitVec.toNat_add, BitVec.toNat_setWidth, BitVec.extractLsb'_toNat, Nat.shiftRight_eq_div_pow,
    Nat.mod_add_mod]
  rfl

theorem Fits.field_lt {width : Width} {registerClass : RegisterClass} {range : BitRange} {offset : Register}
    (h : Fits width (.field registerClass range offset)) (word : Word) :
    range.valueIn word + offset.toNat < 255 := by
  have hlargest := h.2.2
  have hvalue : range.valueIn word < 2 ^ (range.hi - range.lo + 1) := Nat.mod_lt _ (Nat.two_pow_pos _)
  rw [Operand.largestRegister, Nat.one_shiftLeft] at hlargest
  omega

/-- No word makes the number of a register overflow, or reach the number that stands for no register. -/
theorem Fits.number?_eq_some_iff {width : Width} {slot : Slot} (h : slot.Fits width) (word : Word) (n : Nat) :
    slot.number? word = some n ↔ slot ≠ .none ∧ (slot.extract word).toNat = n ∧ n < 255 := by
  cases slot with
  | none => exact ⟨nofun, fun h => absurd rfl h.1⟩
  | literal register =>
    rw [number?, Option.some.injEq, and_iff_right nofun]
    constructor
    · rintro rfl
      exact ⟨rfl, h⟩
    · exact fun hn => hn.1
  | field registerClass range offset =>
    have hlt := h.field_lt word
    rw [number?, Option.some.injEq, and_iff_right nofun, toNat_extract_field, Nat.mod_eq_of_lt (by omega)]
    constructor
    · rintro rfl
      exact ⟨rfl, hlt⟩
    · exact fun hn => hn.1

theorem Fits.extract_eq_noRegister_iff {width : Width} {slot : Slot} (h : slot.Fits width) (word : Word) :
    slot.extract word = noRegister ↔ slot = .none := by
  constructor
  · intro hextract
    cases hnumber : slot.number? word with
    | none =>
      cases slot with
      | none => rfl
      | literal _ | field _ _ _ => cases hnumber
    | some n =>
      obtain ⟨_, hn, hlt⟩ := (h.number?_eq_some_iff word n).mp hnumber
      rw [hextract] at hn
      exact absurd hlt (hn ▸ by decide)
  · rintro rfl
    rfl

theorem Fits.number?_eq {width : Width} {slot : Slot} (h : slot.Fits width) (word : Word) :
    slot.number? word = if slot.extract word = noRegister then .none else some (slot.extract word).toNat := by
  split
  · next hnone =>
    rw [(h.extract_eq_noRegister_iff word).mp hnone]
    rfl
  · next hsome =>
    have hne : slot ≠ .none := fun hnone => hsome ((h.extract_eq_noRegister_iff word).mpr hnone)
    refine (h.number?_eq_some_iff word _).mpr ⟨hne, rfl, ?_⟩
    have hlt := (slot.extract word).isLt
    have hbound : (slot.extract word).toNat ≠ 255 := fun heq => hsome (BitVec.eq_of_toNat_eq heq)
    omega

end Slot

/-! ### Words in a row -/

/-- A text that begins with a blank is not found across characters that are none. -/
theorem infix_append_of_notMem {p cs rest : List Char} (hcs : ' ' ∉ cs) :
    ' ' :: p <:+: cs ++ rest ↔ ' ' :: p <:+: rest := by
  induction cs with
  | nil => rfl
  | cons c cs ih =>
    obtain ⟨hc, hcs⟩ := List.ne_and_not_mem_of_not_mem_cons hcs
    rw [List.cons_append, List.infix_cons_iff, ih hcs, List.cons_prefix_cons]
    exact or_iff_right fun h => hc h.1

theorem prefix_append_of_notMem {p cs rest : List Char} (hp : ' ' ∉ p) (hrest : ∀ c ∈ rest.head?, c = ' ') :
    p <+: cs ++ rest ↔ p <+: cs := by
  refine ⟨fun h => ?_, fun h => h.trans (List.prefix_append cs rest)⟩
  rcases List.prefix_or_prefix_of_prefix h (List.prefix_append cs rest) with h' | ⟨more, rfl⟩
  · exact h'
  · cases more with
    | nil =>
      rw [List.append_nil]
    | cons c more =>
      rw [List.prefix_append_right_inj] at h
      obtain ⟨tail, rfl⟩ := h
      have hblank : c = ' ' := hrest c rfl
      exact absurd (List.mem_append_right _ List.mem_cons_self) (hblank ▸ hp)

/-- A blank and what follows it are found in a row of words exactly if one of the words begins in that way. -/
theorem infix_spaced_iff {p : List Char} (hp : ' ' ∉ p) {words : List (List Char)} (hwords : ∀ w ∈ words, ' ' ∉ w) :
    ' ' :: p <:+: words.flatMap (' ' :: ·) ↔ ∃ w ∈ words, p <+: w := by
  induction words with
  | nil => exact iff_of_false (by simp) nofun
  | cons w words ih =>
    obtain ⟨hw, hwords⟩ := List.forall_mem_cons.mp hwords
    have hrest : ∀ c ∈ (words.flatMap (' ' :: ·)).head?, c = ' ' := by
      cases words with
      | nil => exact nofun
      | cons next words =>
        rintro c ⟨⟩
        rfl
    rw [List.flatMap_cons, List.cons_append, List.infix_cons_iff, List.cons_prefix_cons, and_iff_right rfl,
      prefix_append_of_notMem hp hrest, infix_append_of_notMem hw, ih hwords, List.exists_mem_cons_iff]

/-! ### Blanks in numerals -/

namespace Text

theorem blank_notMem_toDigits {base : Nat} (hbase : 1 < base) (hle : base ≤ 16) (n : Nat) :
    ' ' ∉ Nat.toDigits base n := by
  intro h
  obtain ⟨digit, hdigit, hblank⟩ := exists_digitChar_of_mem_toDigits hbase h
  have hall : ∀ digit < 16, ' ' ≠ Nat.digitChar digit := by decide
  exact hall digit (Nat.lt_of_lt_of_le hdigit hle) hblank

theorem blank_notMem_decimal (n : Nat) : ' ' ∉ (decimal n).toList := by
  rw [decimal, String.toList_ofList]
  exact blank_notMem_toDigits (by decide) (by decide) n

theorem blank_notMem_signedDecimal (n : Int) : ' ' ∉ (signedDecimal n).toList := by
  cases n with
  | ofNat m => exact blank_notMem_decimal m
  | negSucc m =>
    rw [signedDecimal, String.toList_append, List.mem_append, not_or]
    exact ⟨by decide, blank_notMem_decimal (m + 1)⟩

theorem blank_notMem_hexadecimal (n digits : Nat) : ' ' ∉ (hexadecimal n digits).toList := by
  simp only [hexadecimal, String.toList_append, String.toList_ofList, List.mem_append, not_or]
  refine ⟨by decide, fun h => ?_, blank_notMem_toDigits (by decide) (by decide) n⟩
  exact absurd (List.eq_of_mem_replicate h) (by decide)

end Text

/-! ### Decoded words as text -/

def SlotName.all : List SlotName :=
  [.rd, .rs1, .rs2, .rs3]

theorem PerSlot.get_mem_toList {α : Type} (slots : PerSlot α) (slot : SlotName) : slots.get slot ∈ slots.toList := by
  cases slot <;> simp [get, toList]

theorem SlotName.mem_all (slot : SlotName) : slot ∈ all := by
  cases slot <;> decide

/-- What a register is shown behind. -/
def SlotName.label (slot : SlotName) : String :=
  PerSlot.names.get slot ++ "="

theorem SlotName.eq_of_prefix : ∀ slot other : SlotName, slot.label.toList <+: other.label.toList → slot = other := by
  intro slot other
  cases slot <;> cases other <;> decide

theorem SlotName.blank_notMem_label (slot : SlotName) : ' ' ∉ slot.label.toList := by
  cases slot <;> decide

theorem SlotName.head?_of_label_prefix {slot : SlotName} {cs : List Char} (h : slot.label.toList <+: cs) :
    cs.head? = some 'r' := by
  obtain ⟨rest, rfl⟩ := h
  cases slot <;> rfl

namespace Instruction

variable (instruction : Instruction)

/-- The registers of an instruction as they are shown: one for each slot that is not empty, in the order of the slots. -/
def shownRegisters (word : Word) : List String :=
  SlotName.all.filterMap fun slot =>
    ((instruction.slots.get slot).number? word).map fun n => slot.label ++ Text.decimal n

/-- The immediate as it is shown, in decimal and as a 32-bit number. -/
def shownImmediate (word : Word) : List String :=
  match instruction.immediate with
  | none => []
  | some immediate =>
    ["immed=" ++ Text.signedDecimal (immediate.reconstruct word).toInt,
      "(" ++ Text.hexadecimal ((immediate.reconstruct word).setWidth 32).toNat 1 ++ ")"]

/-- What is shown of an instruction behind its opcode. -/
def shownOperands (word : Word) : String :=
  String.join ((instruction.shownRegisters word ++ instruction.shownImmediate word).map (" " ++ ·))

variable {instruction}

theorem filterMap_registers (hslots : ∀ slot ∈ instruction.slots.toList, slot.Fits instruction.width) (word : Word) :
    (PerSlot.names.toList.zip (instruction.slots.map (·.extract word)).toList).filterMap
      (fun (name, register) =>
        if register = noRegister then none else some (" " ++ name ++ "=" ++ Text.decimal register.toNat)) =
      (instruction.shownRegisters word).map (" " ++ ·) := by
  have hzip : PerSlot.names.toList.zip (instruction.slots.map (·.extract word)).toList =
      SlotName.all.map fun slot => (PerSlot.names.get slot, (instruction.slots.get slot).extract word) := rfl
  rw [hzip, List.filterMap_map, shownRegisters, List.map_filterMap]
  refine List.filterMap_congr fun slot _ => ?_
  have hfits := hslots _ (instruction.slots.get_mem_toList slot)
  simp only [Function.comp_apply, hfits.number?_eq word]
  split
  · rfl
  · simp [SlotName.label, String.append_assoc]

theorem text_decodedIn (hslots : ∀ slot ∈ instruction.slots.toList, slot.Fits instruction.width) (word : Word) :
    (instruction.decodedIn word).text = instruction.opcode ++ instruction.shownOperands word := by
  rw [← String.toList_inj, shownOperands, List.map_append, ← filterMap_registers hslots, shownImmediate]
  simp only [Decoded.text, decodedIn, Entry.instruction?, Entry.mnemonic, Option.bind_some]
  cases instruction.immediate with
  | none => simp [String.toList_join]
  | some immediate => simp [String.toList_join]

theorem blank_notMem_shown {word : Word} {shown : String}
    (h : shown ∈ instruction.shownRegisters word ++ instruction.shownImmediate word) : ' ' ∉ shown.toList := by
  rcases List.mem_append.mp h with h | h
  · obtain ⟨slot, _, hshown⟩ := List.mem_filterMap.mp h
    obtain ⟨n, _, rfl⟩ := Option.map_eq_some_iff.mp hshown
    rw [String.toList_append, List.mem_append, not_or]
    exact ⟨slot.blank_notMem_label, Text.blank_notMem_decimal n⟩
  · rw [shownImmediate] at h
    split at h
    · cases h
    · rcases List.mem_pair.mp h with rfl | rfl
      · rw [String.toList_append, List.mem_append, not_or]
        exact ⟨by decide, Text.blank_notMem_signedDecimal _⟩
      · simp only [String.toList_append, List.mem_append, not_or]
        exact ⟨⟨by decide, Text.blank_notMem_hexadecimal _ _⟩, by decide⟩

/-- One of the words that are shown begins with the label of a slot exactly if the slot is not empty. -/
theorem exists_shown_iff (word : Word) {slot : SlotName} :
    (∃ shown ∈ instruction.shownRegisters word ++ instruction.shownImmediate word,
      slot.label.toList <+: shown.toList) ↔ instruction.slots.get slot ≠ .none := by
  constructor
  · rintro ⟨shown, hmem, hprefix⟩
    rcases List.mem_append.mp hmem with hmem | hmem
    · obtain ⟨other, _, hshown⟩ := List.mem_filterMap.mp hmem
      obtain ⟨n, hnumber, rfl⟩ := Option.map_eq_some_iff.mp hshown
      have hsame : slot = other := by
        rw [String.toList_append] at hprefix
        rcases List.prefix_or_prefix_of_prefix hprefix (List.prefix_append _ _) with h | h
        · exact SlotName.eq_of_prefix slot other h
        · exact (SlotName.eq_of_prefix other slot h).symm
      intro hnone
      rw [← hsame, hnone] at hnumber
      cases hnumber
    · -- neither word of the immediate begins as the labels do
      have hhead := SlotName.head?_of_label_prefix hprefix
      rw [shownImmediate] at hmem
      split at hmem
      · cases hmem
      · rcases List.mem_pair.mp hmem with rfl | rfl <;> simp at hhead
  · intro hslot
    obtain ⟨n, hn⟩ : ∃ n, (instruction.slots.get slot).number? word = some n := by
      cases h : instruction.slots.get slot with
      | none => exact absurd h hslot
      | literal _ | field _ _ _ => exact ⟨_, rfl⟩
    refine ⟨slot.label ++ Text.decimal n, List.mem_append_left _ (List.mem_filterMap.mpr ⟨slot, slot.mem_all, ?_⟩), ?_⟩
    · rw [hn]
      rfl
    · rw [String.toList_append]
      exact List.prefix_append _ _

/-- The label of a slot is found behind the opcode exactly if the slot is not empty. -/
theorem label_infix_shownOperands_iff (word : Word) {slot : SlotName} :
    (" " ++ slot.label).toList <:+: (instruction.shownOperands word).toList ↔ instruction.slots.get slot ≠ .none := by
  have hwords : (instruction.shownOperands word).toList =
      ((instruction.shownRegisters word ++ instruction.shownImmediate word).map String.toList).flatMap (' ' :: ·) := by
    rw [shownOperands, String.toList_join, List.flatMap_map, List.flatMap_map]
    simp
  rw [hwords, String.toList_append]
  show ' ' :: slot.label.toList <:+: _ ↔ _
  rw [infix_spaced_iff slot.blank_notMem_label, ← exists_shown_iff word]
  · simp only [List.mem_map, exists_exists_and_eq_and]
  · intro w hw
    obtain ⟨shown, hshown, rfl⟩ := List.mem_map.mp hw
    exact blank_notMem_shown hshown

end Instruction

/-- The opcode of an instruction is that of a record, and none that is read from a description holds a blank. -/
theorem Table.blank_notMem_opcode {records : List Record} {controlFlow : List String} {table : Table} {source : String}
    (h : ofRecords records controlFlow = .ok table) (hsource : Record.parseSource source = .ok records) :
    ∀ i ∈ table.instructions, ' ' ∉ i.opcode.toList := by
  intro i hi hblank
  obtain ⟨resolved, H⟩ := ofRecords_describes h
  obtain ⟨record, hrecord, layout, slots, -, -, rfl⟩ := H.exists_record hi
  exact absurd (Record.parseSource_opcode hsource record hrecord ' ' hblank) (by decide)

/-- On every word, a slot of a table gives the number that stands for no register exactly if it is empty, and a slot of bits
gives the number in these bits plus its offset, which fits a register number. A decoded word shows, behind its opcode, a
register for each slot that is not empty, in the order of the slots. -/
theorem Table.register_numbers {records : List Record} {controlFlow : List String} {table : Table}
    (h : ofRecords records controlFlow = .ok table) :
    (∀ i ∈ table.instructions, ∀ (slot : SlotName) (word : Word),
      ((i.slots.get slot).extract word = noRegister ↔ i.slots.get slot = .none) ∧
      ∀ registerClass range offset, i.slots.get slot = .field registerClass range offset →
        range.valueIn word < 2 ^ 8 ∧ range.valueIn word + offset.toNat < 2 ^ 8 ∧
        ((i.slots.get slot).extract word).toNat = range.valueIn word + offset.toNat) ∧
    ∀ (word : Word) (available : Nat) (i : Instruction), (table.decode word available).entry = .instruction i →
      (table.decode word available).text = i.opcode ++ i.shownOperands word ∧
      ∀ slot : SlotName,
        ((" " ++ slot.label).toList <:+: (i.shownOperands word).toList ↔ i.slots.get slot ≠ .none) ∧
        ∀ source, Record.parseSource source = .ok records →
          ((" " ++ slot.label).toList <:+: (table.decode word available).text.toList ↔ i.slots.get slot ≠ .none) := by
  have H := ofRecords_wellFormed h
  refine ⟨fun i hi slot word => ?_, fun word available i hentry => ?_⟩
  · have hfits := (H.instructions i hi).slots _ (i.slots.get_mem_toList slot)
    refine ⟨hfits.extract_eq_noRegister_iff word, fun registerClass range offset hslot => ?_⟩
    rw [hslot] at hfits ⊢
    have hlt := hfits.field_lt word
    refine ⟨by omega, by omega, ?_⟩
    rw [Slot.toNat_extract_field, Nat.mod_eq_of_lt (by omega)]
  · have hselect := entry_decode_eq_iff.mp hentry
    have hi : i ∈ table.instructions := List.mem_of_find?_eq_some hselect
    have htext : (table.decode word available).text = i.opcode ++ i.shownOperands word := by
      rw [decode_eq, hselect, Option.elim_some]
      exact i.text_decodedIn (H.instructions i hi).slots word
    refine ⟨htext, fun slot => ⟨i.label_infix_shownOperands_iff word, fun source hsource => ?_⟩⟩
    rw [← i.label_infix_shownOperands_iff word, htext, String.toList_append, String.toList_append]
    exact infix_append_of_notMem (blank_notMem_opcode h hsource i hi)

/-- A compressed instruction with the largest register number in its third slot and nothing in the second. -/
def edgeSource : String :=
  "c.edge - - \"000 ........... 01\" x[4:2]+8,-,254 \"\"\n"

theorem Table.register_numbers_edgeSource :
    ∃ records table i, Record.parseSource edgeSource = .ok records ∧ ofRecords records [] = .ok table ∧
      (table.decode 0x1d 2).entry = .instruction i ∧ i.slots.get .rs1 = .none ∧
      (table.decode 0x1d 2).text = "c.edge rd=15 rs2=254" ∧
      ¬ " rs1=".toList <:+: (table.decode 0x1d 2).text.toList := by
  obtain ⟨records, hrecords, hofRecords⟩ : ∃ records, Record.parseSource edgeSource = .ok records ∧
      ((ofRecords records []).toOption.any fun table =>
        decide ((table.decode 0x1d 2).text = "c.edge rd=15 rs2=254") &&
          table.instructions.any fun i =>
            decide ((table.decode 0x1d 2).entry = .instruction i ∧ i.slots.get .rs1 = .none)) = true :=
    exists_ok_of_any (by decide +kernel)
  obtain ⟨table, htable, hdecoded⟩ := exists_ok_of_any hofRecords
  obtain ⟨htext, hany⟩ := Bool.and_eq_true_iff.mp hdecoded
  obtain ⟨i, -, hi⟩ := List.any_eq_true.mp hany
  obtain ⟨hentry, hslot⟩ := of_decide_eq_true hi
  have hshown := (((register_numbers htable).2 0x1d 2 i hentry).2 .rs1).2 edgeSource hrecords
  exact ⟨records, table, i, hrecords, htable, hentry, hslot, of_decide_eq_true htext,
    fun hinfix => hshown.mp hinfix hslot⟩

end IsaForge
