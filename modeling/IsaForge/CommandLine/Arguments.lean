import IsaForge.Immediate
import IsaForge.Text.Numeral

/-!
The arguments of the command line. `Request.parse` reads them into a `Request`: one source, and options that may stand
before and after it. An option with a value takes it from the next argument or after an equals sign; `--` ends the
options.
-/

namespace IsaForge

/-! ### Words -/

/-- Why a text is not an instruction word. -/
inductive WordFault where
  | empty
  | invalidDigit
  | tooLarge
deriving DecidableEq, Repr

def WordFault.message : WordFault → String
  | .empty => "cannot parse integer from empty string"
  | .invalidDigit => "invalid digit found in string"
  | .tooLarge => "number too large to fit in target type"

namespace Word

/-- Read digits from the most significant one up to the first that is none or makes the number too large, `value` being
what was read so far. -/
def readDigits (base value : Nat) : List Char → Except WordFault Nat
  | [] => .ok value
  | c :: rest =>
    match Text.digitValue? base c with
    | none => .error .invalidDigit
    | some digit =>
      if Text.wordLimit ≤ value * base + digit then .error .tooLarge
      else readDigits base (value * base + digit) rest

/-- Read a numeral, which may have a plus sign. -/
def readNumeral (base : Nat) : List Char → Except WordFault Nat
  | [] => .error .empty
  | ['+'] => .error .invalidDigit
  | '+' :: digits => readDigits base 0 digits
  | digits => readDigits base 0 digits

/-- Read a word in decimal, or in hexadecimal after its marker. Underscores in the digits do not count. -/
def parse (text : String) : Except WordFault Word :=
  let plain (cs : List Char) : List Char := cs.filter (· != '_')
  let value := match text.toList with
    | '0' :: 'x' :: digits => readNumeral 16 (plain digits)
    | '0' :: 'X' :: digits => readNumeral 16 (plain digits)
    | digits => readNumeral 10 (plain digits)
  value.map (BitVec.ofNat 32)

end Word

/-! ### Requests -/

/-- What is asked for. -/
structure Request where
  /-- The path of the description. -/
  source : String
  /-- The directory of the artifacts; if there is none, it is the one of the source. -/
  output? : Option String := none
  /-- The path of the configuration. -/
  config? : Option String := none
  /-- A state type in place of the configured one. -/
  stateType? : Option String := none
  /-- Whether to warn about instructions that overlap. -/
  checkOverlaps : Bool := false
  /-- The path for the document of the compilation. -/
  dumpTable? : Option String := none
  /-- Words to decode instead of writing artifacts. -/
  decode : List Word := []
deriving DecidableEq, Repr

/-- Why arguments are refused. -/
inductive UsageError where
  | misuse
  | notAWord (text : String) (fault : WordFault)
deriving DecidableEq, Repr

def UsageError.message : UsageError → String
  | .misuse => "usage"
  | .notAWord text fault => "\"" ++ text ++ "\" is not a 32-bit word: " ++ fault.message

namespace Arguments

/-- The options that take a value. -/
inductive ValueOption where
  | output
  | config
  | stateType
  | dumpTable
  | decode
deriving DecidableEq, Repr

/-- The option of a name. -/
def ValueOption.ofName? : String → Option ValueOption
  | "output" => some .output
  | "config" => some .config
  | "state-type" => some .stateType
  | "dump-table" => some .dumpTable
  | "decode" => some .decode
  | _ => none

/-- What the arguments so far ask for. -/
structure Partial where
  source? : Option String := none
  options : Request := { source := "" }

/-- An argument that was seen but not taken in yet. -/
inductive Pending where
  | nothing
  /-- An option that still needs its value. -/
  | waiting (option : ValueOption)
  /-- An option with its value. -/
  | valued (option : ValueOption) (value : String)
  | source (path : String)

/-- The path that an option is set to, which is set once and is not empty. -/
def setPath (current : Option String) (path : String) : Except UsageError (Option String) :=
  if current.isSome || path.isEmpty then .error .misuse else .ok (some path)

/-- Take in an option with its value. -/
def setOption (found : Partial) (option : ValueOption) (value : String) : Except UsageError Partial :=
  let options := found.options
  match option with
  | .output => do return { found with options.output? := ← setPath options.output? value }
  | .config => do return { found with options.config? := ← setPath options.config? value }
  | .dumpTable => do return { found with options.dumpTable? := ← setPath options.dumpTable? value }
  | .stateType =>
    if options.stateType?.isSome then .error .misuse else .ok { found with options.stateType? := some value }
  | .decode =>
    match Word.parse value with
    | .ok word => .ok { found with options.decode := options.decode ++ [word] }
    | .error fault => .error (.notAWord value fault)

/-- Take in what is pending. -/
def settle (found : Partial) : Pending → Except UsageError Partial
  | .nothing => .ok found
  | .waiting _ => .error .misuse
  | .valued option value => setOption found option value
  | .source path => if path.isEmpty then .error .misuse else .ok { found with source? := some path }

/-- How one argument reads on its own. -/
inductive Argument where
  /-- The end of the options. -/
  | endOfOptions
  | checkOverlaps
  /-- An option whose value is the next argument. -/
  | option (option : ValueOption)
  /-- An option with its value in the same argument. -/
  | attached (option : ValueOption) (value : String)
  /-- The source, or the value of the option before. -/
  | plain (text : String)
  | unknown

/-- An argument after its two hyphens: a name, and maybe a value after an equals sign. -/
def readLong (cs : List Char) : Argument :=
  let name := String.ofList (cs.takeWhile (· != '='))
  match cs.dropWhile (· != '='), ValueOption.ofName? name with
  | [], some option => .option option
  | _ :: value, some option => .attached option (String.ofList value)
  | [], none => if name = "check-overlaps" then .checkOverlaps else .unknown
  | _ :: _, none => .unknown

/-- An argument after its one hyphen: a letter, and maybe a value right after it. -/
def readShort : List Char → Argument
  | ['o'] => .option .output
  | 'o' :: '=' :: value => .attached .output (String.ofList value)
  | 'o' :: value => .attached .output (String.ofList value)
  | _ => .unknown

/-- Read one argument. -/
def readArgument (text : String) : Argument :=
  match text.toList with
  | ['-', '-'] => .endOfOptions
  | '-' :: '-' :: name => readLong name
  | '-' :: letter :: rest => readShort (letter :: rest)
  | _ => .plain text

/-- Whether the source is given already. -/
def hasSource (found : Partial) : Pending → Bool
  | .source _ => true
  | _ => found.source?.isSome

/-- Take in the source. -/
def addSource (found : Partial) (pending : Pending) (path : String) : Except UsageError (Partial × Pending) :=
  if hasSource found pending then .error .misuse
  else do return (← settle found pending, .source path)

/-- Read arguments after the end of the options. -/
def readPlain (found : Partial) (pending : Pending) : List String → Except UsageError Partial
  | [] => settle found pending
  | path :: rest =>
    match addSource found pending path with
    | .error e => .error e
    | .ok (found, pending) => readPlain found pending rest

/-- Read arguments. -/
def readAll (found : Partial) (pending : Pending) : List String → Except UsageError Partial
  | [] => settle found pending
  | text :: rest =>
    match readArgument text with
    | .endOfOptions => readPlain found pending rest
    | .unknown => .error .misuse
    | .checkOverlaps =>
      match settle found pending with
      | .error e => .error e
      | .ok found =>
        if found.options.checkOverlaps then .error .misuse
        else readAll { found with options.checkOverlaps := true } .nothing rest
    | .option option =>
      match settle found pending with
      | .error e => .error e
      | .ok found => readAll found (.waiting option) rest
    | .attached option value =>
      match settle found pending with
      | .error e => .error e
      | .ok found =>
        match setOption found option value with
        | .error e => .error e
        | .ok found => readAll found .nothing rest
    | .plain text =>
      match pending with
      | .waiting option => readAll found (.valued option text) rest
      | _ =>
        match addSource found pending text with
        | .error e => .error e
        | .ok (found, pending) => readAll found pending rest

end Arguments

/-- Read the arguments of the command line. -/
def Request.parse (arguments : List String) : Except UsageError Request :=
  match Arguments.readAll {} .nothing arguments with
  | .error e => .error e
  | .ok found =>
    match found.source? with
    | none => .error .misuse
    | some source => .ok { found.options with source }

end IsaForge
