import IsaForge.Config
import IsaForge.Proofs.JsonText

/-!
Configurations and the objects that list their fields. An object may leave out the fields that have their defaults and
list the others in any order, in the configuration and in its file names alike (`Lists`); whatever its text, it is read
as the configuration that it lists. One more member under a key that is unknown or listed already, and nothing is read.
-/

namespace IsaForge

/-! ### Keys -/

theorem length_eraseDups_le {α : Type} [BEq α] (keys : List α) : keys.eraseDups.length ≤ keys.length := by
  induction hlength : keys.length using Nat.strongRecOn generalizing keys with
  | ind n ih =>
    cases keys with
    | nil => simp
    | cons key keys =>
      have hfilter := List.length_filter_le (fun other => !other == key) keys
      rw [List.length_cons] at hlength
      rw [List.eraseDups_cons, List.length_cons]
      have hrest := ih _ (by omega) (keys.filter fun other => !other == key) rfl
      omega

/-- Removing repetitions keeps the length of a list that has none, and of no other. -/
theorem length_eraseDups_eq_iff {α : Type} [BEq α] [LawfulBEq α] (keys : List α) :
    keys.eraseDups.length = keys.length ↔ keys.Nodup := by
  induction keys with
  | nil => simp
  | cons key keys ih =>
    have hle := length_eraseDups_le (keys.filter fun other => !other == key)
    rw [List.eraseDups_cons, List.length_cons, List.length_cons, Nat.add_right_cancel_iff, List.nodup_cons, ← ih]
    by_cases hmem : key ∈ keys
    -- What is removed for a repeated key is missing at the end, whatever the others lose.
    · have hlt : (keys.filter fun other => !other == key).length < keys.length :=
        List.length_filter_lt_length_iff_exists.mpr ⟨key, hmem, by simp⟩
      simp only [hmem, not_true_eq_false, false_and, iff_false]
      omega
    · have hfilter : (keys.filter fun other => !other == key) = keys := by
        refine List.filter_eq_self.mpr fun other hother => ?_
        simpa using ne_of_mem_of_not_mem hother hmem
      simp [hfilter, hmem]

namespace Config

open JsonValue (IsBlanks IsExponent IsNumber IsText Spells SpellsChar SpellsChars SpellsMember SpellsString SpellsUnit)

variable {names : List String} {members added : List (String × JsonValue)}

/-- The keys of an object, all known and none repeated. -/
structure GoodKeys (names : List String) (members : List (String × JsonValue)) : Prop where
  known : ∀ key ∈ members.map (·.1), key ∈ names
  distinct : (members.map (·.1)).Nodup

theorem goodKeys_iff :
    GoodKeys names members ↔ ((members.map (·.1)).all names.contains &&
      (members.map (·.1)).eraseDups.length == (members.map (·.1)).length) = true := by
  rw [Bool.and_eq_true, beq_iff_eq, length_eraseDups_eq_iff, List.all_eq_true]
  simp only [List.contains_iff_mem]
  exact ⟨fun h => ⟨h.known, h.distinct⟩, fun h => ⟨h.1, h.2⟩⟩

theorem membersOf_of_goodKeys (h : GoodKeys names members) : membersOf names (.object members) = some members :=
  if_pos (goodKeys_iff.mp h)

theorem membersOf_of_not_goodKeys (h : ¬ GoodKeys names members) : membersOf names (.object members) = none :=
  if_neg fun hkeys => h (goodKeys_iff.mpr hkeys)

/-- One member more than `members`, under a key that is unknown or listed already. -/
inductive AddsMember (names : List String) (members : List (String × JsonValue)) : List (String × JsonValue) → Prop
  | between {before after : List (String × JsonValue)} {key : String} {value : JsonValue} : members = before ++ after →
    key ∉ names ∨ key ∈ members.map (·.1) → AddsMember names members (before ++ (key, value) :: after)

theorem AddsMember.not_goodKeys (h : AddsMember names members added) : ¬ GoodKeys names added := by
  cases h with
  | between hmembers hkey =>
    subst hmembers
    intro hgood
    rcases hkey with hunknown | hlisted
    · exact hunknown (hgood.known _ (by simp))
    · have hdistinct := hgood.distinct
      rw [List.map_append, List.map_cons, List.nodup_middle, List.nodup_cons, ← List.map_append] at hdistinct
      exact hdistinct.1 hlisted

/-! ### Fields -/

/-- A field of an object: its key, the values that show it, and whether it has its default and may be left out. -/
structure Field where
  name : String
  shows : JsonValue → Prop
  isDefault : Prop

def Field.text (name text default : String) : Field :=
  ⟨name, (· = .string text), text = default⟩

def Field.texts (name : String) (texts default : List String) : Field :=
  ⟨name, (· = .strings texts), texts = default⟩

/-- An object lists fields, in any order: each member shows a field, no two the same one, and what is left out has its
default. -/
structure Lists (fields : List Field) (members : List (String × JsonValue)) : Prop where
  distinct : (members.map (·.1)).Nodup
  shown : ∀ member ∈ members, ∃ field ∈ fields, field.name = member.1 ∧ field.shows member.2
  omitted : ∀ field ∈ fields, field.name ∉ members.map (·.1) → field.isDefault

def fileFields (files : PerArtifact String) : List Field :=
  let default := ({} : Config).files
  [.text "opcodes" files.opcodes default.opcodes, .text "decode" files.decode default.decode,
    .text "disasm" files.disasm default.disasm, .text "execute" files.execute default.execute]

def fields (config : Config) : List Field :=
  let default : Config := {}
  [.text "state_type" config.stateType default.stateType, .texts "gpr_names" config.gprNames default.gprNames,
    .texts "fpr_names" config.fprNames default.fprNames,
    .texts "control_flow" config.controlFlow default.controlFlow,
    ⟨"files", fun value => ∃ members, value = .object members ∧ Lists (fileFields config.files) members,
      config.files = default.files⟩]

theorem Lists.goodKeys {fields : List Field} (h : Lists fields members) :
    GoodKeys (fields.map (·.name)) members := by
  refine ⟨fun key hkey => ?_, h.distinct⟩
  obtain ⟨member, hmember, rfl⟩ := List.mem_map.mp hkey
  obtain ⟨field, hfield, hname, _⟩ := h.shown member hmember
  exact List.mem_map.mpr ⟨field, hfield, hname⟩

/-- A field is read as its value, from the member that shows it or as its default. -/
theorem Lists.fieldOr_eq {fields : List Field} (h : Lists fields members)
    (hnames : (fields.map (·.name)).Nodup) {field : Field} (hfield : field ∈ fields) {α : Type}
    {decode : JsonValue → Option α} {x default : α} (hshows : ∀ value, field.shows value → decode value = some x)
    (hdefault : field.isDefault → x = default) : fieldOr members field.name decode default = some x := by
  rw [fieldOr]
  cases hlookup : members.lookup field.name with
  | none =>
    have hleft : field.name ∉ members.map (·.1) := by
      intro hmem
      obtain ⟨member, hmember, hname⟩ := List.mem_map.mp hmem
      have hne := List.lookup_eq_none_iff.mp hlookup member hmember
      simp [hname] at hne
    rw [hdefault (h.omitted field hfield hleft)]
  | some value =>
    obtain ⟨before, after, rfl, _⟩ := List.lookup_eq_some_iff.mp hlookup
    obtain ⟨other, hother, hname, hvalue⟩ := h.shown (field.name, value) (by simp)
    have heq : other = field := List.inj_on_of_nodup_map hnames hother hfield hname
    exact hshows value (heq ▸ hvalue)

theorem textsOf_strings (texts : List String) : textsOf (.strings texts) = some texts := by
  rw [JsonValue.strings, textsOf, List.mapM_map]
  induction texts with
  | nil => rfl
  | cons text texts ih => simp_all [textOf]

theorem Lists.text_eq {fields : List Field} (h : Lists fields members)
    (hnames : (fields.map (·.name)).Nodup) {name text default : String}
    (hfield : Field.text name text default ∈ fields) : fieldOr members name textOf default = some text := by
  refine h.fieldOr_eq hnames hfield ?_ id
  rintro value rfl
  rfl

theorem Lists.texts_eq {fields : List Field} (h : Lists fields members)
    (hnames : (fields.map (·.name)).Nodup) {name : String} {texts default : List String}
    (hfield : Field.texts name texts default ∈ fields) : fieldOr members name textsOf default = some texts := by
  refine h.fieldOr_eq hnames hfield ?_ id
  rintro value rfl
  exact textsOf_strings texts

/-! ### Configurations -/

/-- The names of the fields of a configuration. -/
def fieldNames : List String := ["state_type", "gpr_names", "fpr_names", "control_flow", "files"]

/-- The names of the fields of the file names. -/
def fileFieldNames : List String := ["opcodes", "decode", "disasm", "execute"]

theorem map_name_fields (config : Config) : (fields config).map (·.name) = fieldNames := rfl

theorem map_name_fileFields (files : PerArtifact String) : (fileFields files).map (·.name) = fileFieldNames := rfl

theorem filesOf_of_lists {files : PerArtifact String} (h : Lists (fileFields files) members) :
    filesOf (.object members) = some files := by
  have hnames : ((fileFields files).map (·.name)).Nodup := by
    rw [map_name_fileFields]
    decide
  have hmembers : membersOf fileFieldNames (.object members) = some members := membersOf_of_goodKeys h.goodKeys
  have hopcodes := h.text_eq hnames (.head _)
  have hdecode := h.text_eq hnames (.tail _ (.head _))
  have hdisasm := h.text_eq hnames (.tail _ (.tail _ (.head _)))
  have hexecute := h.text_eq hnames (.tail _ (.tail _ (.tail _ (.head _))))
  rw [fileFieldNames] at hmembers
  simp only [filesOf, hmembers, hopcodes, hdecode, hdisasm, hexecute, Option.bind_eq_bind, Option.bind_some,
    Option.pure_def]

theorem ofJson?_of_lists {config : Config} (h : Lists (fields config) members) :
    ofJson? (.object members) = some config := by
  have hnames : ((fields config).map (·.name)).Nodup := by
    rw [map_name_fields]
    decide
  have hmembers : membersOf fieldNames (.object members) = some members := membersOf_of_goodKeys h.goodKeys
  have hstate := h.text_eq hnames (.head _)
  have hgpr := h.texts_eq hnames (.tail _ (.head _))
  have hfpr := h.texts_eq hnames (.tail _ (.tail _ (.head _)))
  have hflow := h.texts_eq hnames (.tail _ (.tail _ (.tail _ (.head _))))
  have hfiles : fieldOr members "files" filesOf ({} : Config).files = some config.files := by
    refine h.fieldOr_eq hnames (.tail _ (.tail _ (.tail _ (.tail _ (.head _))))) ?_ id
    rintro value ⟨inner, rfl, hinner⟩
    exact filesOf_of_lists hinner
  rw [fieldNames] at hmembers
  simp only [ofJson?, hmembers, hstate, hgpr, hfpr, hflow, hfiles, Option.bind_eq_bind, Option.bind_some,
    Option.pure_def]

/-- One member more, in the object itself or in the one of its file names, under a key that is unknown there or listed
already. -/
inductive Overfills (members : List (String × JsonValue)) : List (String × JsonValue) → Prop
  | field {added : List (String × JsonValue)} : AddsMember fieldNames members added → Overfills members added
  | file {before after inner added : List (String × JsonValue)} :
    members = before ++ ("files", .object inner) :: after → AddsMember fileFieldNames inner added →
    Overfills members (before ++ ("files", .object added) :: after)

theorem ofJson?_of_not_goodKeys (h : ¬ GoodKeys fieldNames members) :
    ofJson? (.object members) = none := by
  have hmembers := membersOf_of_not_goodKeys h
  rw [fieldNames] at hmembers
  simp only [ofJson?, hmembers, Option.bind_eq_bind, Option.bind_none]

theorem filesOf_of_not_goodKeys (h : ¬ GoodKeys fileFieldNames members) :
    filesOf (.object members) = none := by
  have hmembers := membersOf_of_not_goodKeys h
  rw [fileFieldNames] at hmembers
  simp only [filesOf, hmembers, Option.bind_eq_bind, Option.bind_none]

/-- File names that cannot be read leave no configuration, whatever the other members are. -/
theorem ofJson?_of_files {value : JsonValue} (hlookup : members.lookup "files" = some value) (hvalue : filesOf value = none) :
    ofJson? (.object members) = none := by
  by_cases hgood : GoodKeys fieldNames members
  · have hmembers := membersOf_of_goodKeys hgood
    have hfiles : fieldOr members "files" filesOf ({} : Config).files = none := by
      rw [fieldOr, hlookup]
      exact hvalue
    rw [fieldNames] at hmembers
    simp only [ofJson?, hmembers, hfiles, Option.bind_eq_bind, Option.bind_some, Option.bind_none]
    simp
  · exact ofJson?_of_not_goodKeys hgood

theorem Overfills.ofJson?_eq_none (h : Overfills members added)
    (hdistinct : (members.map (·.1)).Nodup) : ofJson? (.object added) = none := by
  cases h with
  | field hadds => exact ofJson?_of_not_goodKeys hadds.not_goodKeys
  | @file before after inner added hmembers hadds =>
    subst hmembers
    rw [List.map_append, List.map_cons, List.nodup_middle, List.nodup_cons, List.mem_append, not_or] at hdistinct
    refine ofJson?_of_files (List.lookup_eq_some_iff.mpr ⟨before, after, rfl, fun member hmember => ?_⟩)
      (filesOf_of_not_goodKeys hadds.not_goodKeys)
    rw [bne_iff_ne]
    intro heq
    exact hdistinct.1.1 (List.mem_map.mpr ⟨member, hmember, heq.symm⟩)

/-- An accepted configuration is read from every text of an object that lists it, and none is read from a text that has
one member more. -/
theorem parse_listed {config : Config} (hvalid : config.validate = .ok ()) {members : List (String × JsonValue)}
    (hlists : Lists (fields config) members) :
    (∀ text, IsText text (.object members) → parse text = .ok config) ∧
      ∀ added text, Overfills members added → IsText text (.object added) →
        parse text = .error (.invalidConfig .undecodable) := by
  constructor
  · intro text htext
    rw [parse, JsonValue.parse_of_isText htext, Option.bind_some, ofJson?_of_lists hlists]
    dsimp only
    rw [hvalid]
  · intro added text hadded htext
    rw [parse, JsonValue.parse_of_isText htext, Option.bind_some, hadded.ofJson?_eq_none hlists.distinct]

/-- A configuration with a character above the basic plane. -/
def hartConfig : Config :=
  { stateType := "crate::cpu::Hart", controlFlow := ["𝄞"],
    files := ⟨"opcodes.rs", "decode.rs", "disasm.rs", "dispatch.rs"⟩ }

def hartMembers (files : List (String × JsonValue)) : List (String × JsonValue) :=
  [("files", .object files), ("control_flow", .strings ["𝄞"]), ("state_type", .string "crate::cpu::Hart")]

/-- The text of an object that lists the configuration, with the given text for the file names. -/
def hartText (files : String) : String :=
  "\n\x7b \"files\" :" ++ files ++ ",\t\"control_flow\":[\"\\uD834\\udd1e\" ],\"state_type\": \"crate::cpu::Hart\"\x7d "

theorem isText_hartText {files : String} {members : List (String × JsonValue)}
    (h : Spells files.toList (.object members)) :
    IsText (hartText files) (.object (hartMembers members)) := by
  have hnone : IsBlanks [] := nofun
  have hspace : IsBlanks [' '] := by simp [IsBlanks, JsonValue.isBlank]
  have htab : IsBlanks ['\t'] := by simp [IsBlanks, JsonValue.isBlank]
  have hnewline : IsBlanks ['\n'] := by simp [IsBlanks, JsonValue.isBlank]
  have hhigh : SpellsUnit ['D', '8', '3', '4'] 0xD834 := .digits rfl rfl rfl rfl rfl
  have hlow : SpellsUnit ['d', 'd', '1', 'e'] 0xDD1E := .digits rfl rfl rfl rfl rfl
  have hclef : SpellsString ('"' :: ("\\uD834\\udd1e".toList ++ ['"'])) "𝄞" :=
    .quoted (.cons (.pair hhigh hlow (by decide) (by decide) (by decide) (by decide) rfl) .nil)
  have hfiles : SpellsMember _ ("files", .object members) :=
    .colon (.quoted (.self (by simp))) hspace hnone h
  have hflow : SpellsMember _ ("control_flow", .strings ["𝄞"]) :=
    .colon (.quoted (.self (by simp))) hnone hnone (.array hnone (.last (.string hclef) hspace))
  have hstate : SpellsMember _ ("state_type", .string "crate::cpu::Hart") :=
    .colon (.quoted (.self (by simp))) hnone hspace (.string (.quoted (.self (by simp))))
  refine .blanks hnewline (.object hspace (.more hfiles hnone htab (.more hflow hnone hnone (.last hstate hnone))))
    hspace ?_
  simp [hartText]

/-- The configuration is read where its one file name is written with an escape, and is not where that name is listed
once more as a number. -/
theorem parse_listed_hartConfig :
    hartConfig.validate = .ok () ∧ Lists (fields hartConfig) (hartMembers [("execute", .string "dispatch.rs")]) ∧
      parse (hartText "\x7b\"execute\":\"d\\u0069spatch.rs\"\x7d") = .ok hartConfig ∧
      parse (hartText "\x7b\"execute\":\"dispatch.rs\",\"execute\":-0.5e+3\x7d") =
        .error (.invalidConfig .undecodable) := by
  have hvalid : hartConfig.validate = .ok () := by decide +kernel
  have hfiles : Lists (fileFields hartConfig.files) [("execute", .string "dispatch.rs")] := by
    refine ⟨by decide, ?_, ?_⟩
    · simp [fileFields, Field.text, hartConfig]
    · simp [fileFields, Field.text, hartConfig]
  have hlists : Lists (fields hartConfig) (hartMembers [("execute", .string "dispatch.rs")]) := by
    refine ⟨by decide, ?_, ?_⟩
    · simpa [hartMembers, fields, Field.text, Field.texts, hartConfig] using hfiles
    · simp [hartMembers, fields, Field.text, Field.texts, hartConfig]
  have hnone : IsBlanks [] := nofun
  have hexecute : SpellsString _ "execute" := .quoted (.self (by simp))
  have hlisted : Spells "\x7b\"execute\":\"d\\u0069spatch.rs\"\x7d".toList
      (.object [("execute", .string "dispatch.rs")]) := by
    have hd : SpellsChar ['d'] 'd' := .plain (by decide) (by decide) (by decide)
    have hi : SpellsChar "\\u0069".toList 'i' := .unit (.digits rfl rfl rfl rfl rfl)
    have hend : SpellsChars "spatch.rs".toList "spatch.rs".toList := .self (by simp)
    have htext : SpellsString _ "dispatch.rs" := .quoted (by simpa using .cons hd (.cons hi hend))
    simpa using Spells.object hnone (.last (.colon hexecute hnone hnone (.string htext)) hnone)
  have hoverfull : Spells "\x7b\"execute\":\"dispatch.rs\",\"execute\":-0.5e+3\x7d".toList
      (.object [("execute", .string "dispatch.rs"), ("execute", .number "-0.5e+3")]) := by
    have hexponent : IsExponent ('e' :: (['+'] ++ ['3'])) := .mark (.inl rfl) (by simp) ⟨by simp, by simp⟩
    have hnumber : IsNumber (['-'] ++ ['0'] ++ ['.', '5'] ++ ['e', '+', '3']) :=
      .parts (by simp) .zero (.point ⟨by simp, by simp⟩) hexponent
    have htext : SpellsString _ "dispatch.rs" := .quoted (.self (by simp))
    simpa using Spells.object hnone (.more (.colon hexecute hnone hnone (.string htext)) hnone hnone
      (.last (.colon hexecute hnone hnone (.number hnumber)) hnone))
  have hoverfills : Overfills (hartMembers [("execute", .string "dispatch.rs")])
      (hartMembers [("execute", .string "dispatch.rs"), ("execute", .number "-0.5e+3")]) := by
    have hadds : AddsMember fileFieldNames [("execute", .string "dispatch.rs")]
        ([("execute", .string "dispatch.rs")] ++ [("execute", .number "-0.5e+3")]) :=
      .between (List.append_nil _).symm (.inr (by simp))
    exact .file (List.nil_append _).symm hadds
  obtain ⟨hparse, hrefuse⟩ := parse_listed hvalid hlists
  exact ⟨hvalid, hlists, hparse _ (isText_hartText hlisted), hrefuse _ _ hoverfills (isText_hartText hoverfull)⟩

end Config

end IsaForge
