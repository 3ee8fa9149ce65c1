import IsaForge.CommandLine.Arguments
import IsaForge.Compilation.Document
import IsaForge.FileTree

/-!
What the program does. A run loads the configuration and the source, decides by `Plan.make` what to print and what to
write, and does the writes in order up to the first that fails. It sees files only through a `FileAccess`, so that the
same run works on real files and on a `FileTree`.
-/

namespace IsaForge

/-- Reading and writing files. -/
structure FileAccess (m : Type → Type) where
  read : String → m (Except FileError ByteArray)
  /-- Write a file unless it holds the given contents. -/
  write : String → ByteArray → m (Except FileError Bool)

/-- The files of a tree. -/
def FileAccess.ofTree : FileAccess (StateM FileTree) where
  read path := do return (← get).read path
  write path contents := modifyGet (·.writeIfChanged path contents)

/-- Why a text cannot be read. -/
inductive ReadFault where
  | file (error : FileError)
  | encoding
deriving DecidableEq, Repr

def ReadFault.message : ReadFault → String
  | .file error => error.message
  | .encoding => "stream did not contain valid UTF-8"

/-- Why a run fails. -/
inductive Failure where
  | unreadable (path : String) (fault : ReadFault)
  | invalidConfigFile (path : String) (error : Error)
  | invalidConfig (error : Error)
  | notCompiled (path : String) (error : Error)
  | notGenerated (path : String) (error : Error)
  | notWritten (path : String) (error : FileError)
deriving DecidableEq, Repr

def Failure.message : Failure → String
  | .unreadable path fault => "Failed to read \"" ++ path ++ "\": " ++ fault.message
  | .invalidConfigFile path error => "Invalid configuration in \"" ++ path ++ "\": " ++ error.message
  | .invalidConfig error => error.message
  | .notCompiled path error => "Failed to compile \"" ++ path ++ "\": " ++ error.message
  | .notGenerated path error => "Failed to generate code for \"" ++ path ++ "\": " ++ error.message
  | .notWritten path _ => "Failed to write \"" ++ path ++ "\""

/-! ### Paths -/

/-- The directory in which a file is, as its path says. -/
def directoryOf (path : String) : String :=
  let outer := ((FileTree.segments path.toList).dropLast).map String.ofList
  let kept : List String := match outer with
    | [] => []
    | first :: rest => first :: (rest.reverse.dropWhile fun part => part.isEmpty || part = ".").reverse
  if kept = [""] then "/" else String.intercalate "/" kept

/-- The path of a file in a directory. -/
def pathIn (directory name : String) : String :=
  if directory.isEmpty || directory.toList.getLast? = some '/' then directory ++ name else directory ++ "/" ++ name

/-! ### Plans -/

/-- What to do with a description. -/
structure Plan where
  warnings : List String := []
  output : List String := []
  /-- The files to write, in order. -/
  writes : Except Failure (List (String × ByteArray)) := .ok []

namespace Plan

/-- The line of a decoded word. -/
def decodedLine (table : Table) (word : Word) : String :=
  Text.hexadecimal word.toNat 8 ++ ": " ++ (table.decode word 4).text

/-- The artifacts of a compilation and, if it is asked for, its document. -/
def writesOf (request : Request) (config : Config) (compilation : Compilation) :
    Except Failure (List (String × ByteArray)) :=
  match compilation.generate config with
  | .error e => .error (.notGenerated request.source e)
  | .ok items =>
    let directory := request.output?.getD (directoryOf request.source)
    let artifacts := (config.files.toList.zip (items.map artifactText).toList).map fun (name, text) =>
      (pathIn directory name, text.toUTF8)
    let document := request.dumpTable?.toList.map fun path => (path, compilation.document.pretty.toUTF8)
    .ok (artifacts ++ document)

/-- What to do with a source under a configuration. -/
def make (request : Request) (config : Config) (source : String) : Plan :=
  match Compilation.ofSource source config with
  | .error e => { writes := .error (.notCompiled request.source e) }
  | .ok compilation =>
    let warnings := if request.checkOverlaps then compilation.table.overlaps.map (·.text) else []
    if request.decode.isEmpty then { warnings, writes := writesOf request config compilation }
    else { warnings, output := request.decode.map (decodedLine compilation.table) }

end Plan

/-! ### Runs -/

/-- What a run comes to. -/
structure Report where
  warnings : List String := []
  output : List String := []
  failure? : Option Failure := none

namespace Request

variable {m : Type → Type} [Monad m]

/-- Read a text. -/
def readText (files : FileAccess m) (path : String) : ExceptT Failure m String := do
  match ← files.read path with
  | .error e => throw (.unreadable path (.file e))
  | .ok contents =>
    match String.fromUTF8? contents with
    | none => throw (.unreadable path .encoding)
    | some text => return text

/-- The configuration of a request. -/
def loadConfig (files : FileAccess m) (request : Request) : ExceptT Failure m Config := do
  let config ← match request.config? with
    | none => pure {}
    | some path =>
      match Config.parse (← readText files path) with
      | .ok config => pure config
      | .error e => throw (.invalidConfigFile path e)
  let config := { config with stateType := request.stateType?.getD config.stateType }
  match config.validate with
  | .ok _ => return config
  | .error e => throw (.invalidConfig e)

/-- The configuration and the source of a request. -/
def load (files : FileAccess m) (request : Request) : ExceptT Failure m (Config × String) := do
  let config ← request.loadConfig files
  let source ← readText files request.source
  return (config, source)

/-- Write files in order, up to the first that fails. -/
def writeAll (files : FileAccess m) : List (String × ByteArray) → m (Option Failure)
  | [] => return none
  | (path, contents) :: rest => do
    match ← files.write path contents with
    | .error e => return some (.notWritten path e)
    | .ok _ => writeAll files rest

/-- Do what is asked for. -/
def run (files : FileAccess m) (request : Request) : m Report := do
  match ← (request.load files).run with
  | .error failure => return { failure? := some failure }
  | .ok (config, source) =>
    let plan := Plan.make request config source
    match plan.writes with
    | .error failure => return ⟨plan.warnings, plan.output, some failure⟩
    | .ok writes => return ⟨plan.warnings, plan.output, ← writeAll files writes⟩

end Request

/-- What a user sees of a run: its lines of output, its lines of messages, and its exit code. -/
structure Outcome where
  output : List String
  messages : List String
  code : UInt32
deriving DecidableEq, Repr

/-- What a user sees of a report. -/
def Report.outcome (report : Report) : Outcome where
  output := report.output
  messages := report.warnings.map ("WARN " ++ ·) ++ report.failure?.toList.map (·.message)
  code := if report.failure?.isSome then 1 else 0

/-- Run the program on arguments. -/
def runArguments {m : Type → Type} [Monad m] (files : FileAccess m) (arguments : List String) : m Outcome :=
  match Request.parse arguments with
  | .error e => return { output := [], messages := [e.message], code := 2 }
  | .ok request => return (← request.run files).outcome

end IsaForge
