import IsaForge.Text.Numeral

/-!
A tree of files and directories, as seen from a working directory. Every operation takes a path as written and follows it
step by step. `FileTree.writeIfChanged` stores contents under a path unless they are there already, by way of a temporary
file beside it.
-/

namespace IsaForge

/-- Why a file cannot be used. -/
inductive FileError where
  | notFound
  | isADirectory
  | notADirectory
  | alreadyExists
  | nameTooLong
  /-- Any other reason, as the system words it. -/
  | other (reason : String)
deriving DecidableEq, Repr

def FileError.message : FileError → String
  | .notFound => "No such file or directory (os error 2)"
  | .isADirectory => "Is a directory (os error 21)"
  | .notADirectory => "Not a directory (os error 20)"
  | .alreadyExists => "File exists (os error 17)"
  | .nameTooLong => "File name too long (os error 36)"
  | .other reason => reason

/-- Where something is: the names on the way from it up to the working directory. The way out of the working directory
is a run of `..`, and the root of the system is `/`. -/
abbrev Location := List String

namespace Location

/-- The working directory. -/
def here : Location := []

/-- The root of the system. -/
def root : Location := ["/"]

/-- The directory around a directory. -/
def above : Location → Location
  | [] => [".."]
  | name :: outer =>
    if name == ".." then ".." :: name :: outer
    else if name == "/" then name :: outer
    else outer

/-- Whether a location is the working directory, one that holds it, or the root. -/
def isEnclosing (location : Location) : Bool :=
  location.all (· == "..") || location == root

/-- Whether a location is below the working directory. -/
def isInside (location : Location) : Bool :=
  match location.getLast? with
  | none => false
  | some outermost => outermost != ".." && outermost != "/"

/-- A location below the working directory as a path. -/
def text (location : Location) : String :=
  String.intercalate "/" location.reverse

end Location

/-- Contents are compared as the bytes that they consist of. -/
instance (priority := high) decidableEqBytes : DecidableEq ByteArray :=
  fun a b => decidable_of_iff (a.data = b.data) ⟨ByteArray.ext, congrArg ByteArray.data⟩

inductive Node where
  | file (contents : ByteArray)
  | directory
deriving DecidableEq

/-- What is known of the files: the nodes at their locations. -/
structure FileTree where
  nodes : List (Location × Node) := []

namespace FileTree

/-! ### Nodes -/

/-- What is at a location. -/
def node? (tree : FileTree) (location : Location) : Option Node :=
  if location.isEnclosing then some .directory else tree.nodes.lookup location

/-- Take away what is at a location. -/
def erase (tree : FileTree) (location : Location) : FileTree :=
  ⟨tree.nodes.filter fun (other, _) => other != location⟩

/-- Put a node at a location, in place of what is there. -/
def store (tree : FileTree) (location : Location) (node : Node) : FileTree :=
  ⟨(location, node) :: (tree.erase location).nodes⟩

/-! ### Paths -/

/-- The parts of a path between its slashes. -/
def segments : List Char → List (List Char)
  | [] => [[]]
  | c :: cs =>
    match segments cs with
    | [] => [[c]]
    | first :: rest => if c = '/' then [] :: first :: rest else (c :: first) :: rest

/-- The longest name of a file, in bytes. -/
def nameLimit : Nat := 255

/-- The first length, in bytes, that a path cannot have. -/
def pathLimit : Nat := 4096

/-- Follow steps from a directory; each of them has to lead to a directory. -/
def follow (tree : FileTree) (location : Location) : List String → Except FileError Location
  | [] => .ok location
  | step :: rest =>
    if step = "." then tree.follow location rest
    else if step = ".." then tree.follow location.above rest
    else if nameLimit < step.utf8ByteSize then .error .nameTooLong
    else
      match tree.node? (step :: location) with
      | none => .error .notFound
      | some (.file _) => .error .notADirectory
      | some .directory => tree.follow (step :: location) rest

/-- Where a path ends. -/
inductive Target where
  /-- At a directory that it names by its dots or as the root. -/
  | directory (location : Location)
  /-- At a name in a directory, which may or may not be there; a slash may follow the name. -/
  | entry (parent : Location) (name : String) (slash : Bool)
deriving DecidableEq, Repr

/-- The steps of a path: its parts between slashes, without the empty ones. -/
def steps (path : String) : List String :=
  ((segments path.toList).map String.ofList).filter (!·.isEmpty)

/-- Where a path begins. -/
def start (path : String) : Location :=
  if path.toList.head? = some '/' then .root else .here

/-- Why a text cannot be a path, if it cannot. -/
def textError? (path : String) : Option FileError :=
  if path.toList.contains '\x00' then some (.other "file name contained an unexpected NUL byte")
  else if path.isEmpty then some .notFound
  else if pathLimit ≤ path.utf8ByteSize then some .nameTooLong
  else none

/-- Follow a path up to its last name. -/
def target (tree : FileTree) (path : String) : Except FileError Target :=
  match textError? path with
  | some e => .error e
  | none =>
    match (steps path).getLast? with
    | none => .ok (.directory (start path))
    | some last =>
      match tree.follow (start path) (steps path).dropLast with
      | .error e => .error e
      | .ok parent =>
        if last = "." then .ok (.directory parent)
        else if last = ".." then .ok (.directory parent.above)
        else if nameLimit < last.utf8ByteSize then .error .nameTooLong
        else .ok (.entry parent last (path.toList.getLast? == some '/'))

/-- The directory around what a path names. Dots at the end of a path name nothing, and the path may end nowhere. -/
def parent (tree : FileTree) (path : String) : Except FileError Location :=
  let named := ((steps path).reverse.dropWhile (· == ".")).reverse
  tree.follow (start path) named.dropLast

/-! ### Operations -/

/-- The contents of a file. -/
def read (tree : FileTree) (path : String) : Except FileError ByteArray :=
  match tree.target path with
  | .error e => .error e
  | .ok (.directory _) => .error .isADirectory
  | .ok (.entry parent name slash) =>
    match tree.node? (name :: parent) with
    | none => .error .notFound
    | some .directory => .error .isADirectory
    | some (.file contents) => if slash then .error .notADirectory else .ok contents

/-- Create a file where nothing is. -/
def createNew (tree : FileTree) (location : Location) (contents : ByteArray) : Except FileError FileTree :=
  if (tree.node? location).isSome then .error .alreadyExists else .ok (tree.store location (.file contents))

/-- Move a file to the end of a path, in place of a file that is there. -/
def moveFile (tree : FileTree) (source : Location) (path : String) : Except FileError FileTree :=
  match tree.target path with
  | .error e => .error e
  | .ok (.directory _) => .error (.other "Device or resource busy (os error 16)")
  | .ok (.entry parent name slash) =>
    match tree.node? source with
    | none => .error .notFound
    | some .directory => .error .isADirectory
    | some (.file contents) =>
      if slash then .error .notADirectory
      else if tree.node? (name :: parent) = some .directory then .error .isADirectory
      else .ok ((tree.erase source).store (name :: parent) (.file contents))

/-- Put contents at the end of a path, so that nobody sees half of them: they go to a new file beside it, which is moved to
the path, and taken away if it cannot be moved there. -/
def replaceVia (tree : FileTree) (temporary path : String) (contents : ByteArray) : Except FileError Bool × FileTree :=
  match tree.parent path with
  | .error e => (.error e, tree)
  | .ok directory =>
    match tree.createNew (temporary :: directory) contents with
    | .error e => (.error e, tree)
    | .ok staged =>
      match staged.moveFile (temporary :: directory) path with
      | .error e => (.error e, staged.erase (temporary :: directory))
      | .ok changed => (.ok true, changed)

/-- Write a file unless it holds exactly the given contents, by way of a temporary file of the given name. The result says
whether it was written, and comes with the new tree. -/
def writeVia (tree : FileTree) (temporary path : String) (contents : ByteArray) : Except FileError Bool × FileTree :=
  match tree.read path with
  | .ok existing => if existing = contents then (.ok false, tree) else tree.replaceVia temporary path contents
  | .error .notFound => tree.replaceVia temporary path contents
  | .error e => (.error e, tree)

/-- The names of temporary files. -/
def temporaryName (n : Nat) : String :=
  ".tmp" ++ Text.decimal n

/-- The first name of a temporary file that is not in use. -/
def unusedName (used : List String) : String :=
  temporaryName (((List.range used.length).find? fun n => !used.contains (temporaryName n)).getD used.length)

/-- Write a file unless it holds exactly the given contents. The temporary file has a name that neither anything in the
tree nor a step of the path has. -/
def writeIfChanged (tree : FileTree) (path : String) (contents : ByteArray) : Except FileError Bool × FileTree :=
  let used := tree.nodes.filterMap (·.1.head?) ++ steps path
  tree.writeVia (unusedName used) path contents

/-- Create a file or overwrite it. -/
def overwrite (tree : FileTree) (path : String) (contents : ByteArray) : Except FileError FileTree :=
  match tree.target path with
  | .error e => .error e
  | .ok (.directory _) => .error .isADirectory
  | .ok (.entry parent name slash) =>
    if slash || tree.node? (name :: parent) = some .directory then .error .isADirectory
    else .ok (tree.store (name :: parent) (.file contents))

/-- Create a directory. -/
def makeDirectory (tree : FileTree) (path : String) : Except FileError FileTree :=
  match tree.target path with
  | .error e => .error e
  | .ok (.directory _) => .error .alreadyExists
  | .ok (.entry parent name _) =>
    if (tree.node? (name :: parent)).isSome then .error .alreadyExists
    else .ok (tree.store (name :: parent) .directory)

/-- Remove a file. -/
def removeFile (tree : FileTree) (path : String) : Except FileError FileTree :=
  match tree.target path with
  | .error e => .error e
  | .ok (.directory _) => .error .isADirectory
  | .ok (.entry parent name slash) =>
    match tree.node? (name :: parent) with
    | none => .error .notFound
    | some .directory => .error .isADirectory
    | some (.file _) => if slash then .error .notADirectory else .ok (tree.erase (name :: parent))

/-! ### Views -/

/-- The files below the working directory, by path. -/
def files (tree : FileTree) : List (String × ByteArray) :=
  tree.nodes.filterMap fun (location, node) =>
    match node with
    | .file contents => if location.isInside then some (location.text, contents) else none
    | .directory => none

/-- Everything below the working directory in order, the directories with a slash at the end. -/
def listing (tree : FileTree) : List String :=
  let paths := tree.nodes.filterMap fun (location, node) =>
    if location.isInside then
      match node with
      | .file _ => some location.text
      | .directory => some (location.text ++ "/")
    else none
  paths.mergeSort fun a b => decide (a ≤ b)

end FileTree

end IsaForge
