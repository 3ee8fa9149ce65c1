import IsaForge.CommandLine

/-!
The program on real files.
-/

namespace IsaForge

/-- The reason of a failure that the system reports. -/
def FileError.ofSystem : IO.Error → FileError
  | .noFileOrDirectory .. => .notFound
  | .inappropriateType _ 21 _ => .isADirectory
  | .inappropriateType _ 20 _ => .notADirectory
  | .alreadyExists .. => .alreadyExists
  | error => .other (toString error)

/-- The contents of a real file. -/
def readFile (path : String) : IO (Except FileError ByteArray) := do
  try
    return .ok (← IO.FS.readBinFile path)
  catch error => return .error (.ofSystem error)

/-- Put contents into a real file by way of a second file, so that nobody sees half of them. -/
def replaceFile (path : String) (contents : ByteArray) : IO (Except FileError Bool) := do
  let temporary := path ++ ".tmp"
  try
    IO.FS.writeBinFile temporary contents
    try
      IO.FS.rename temporary path
    catch error =>
      IO.FS.removeFile temporary
      throw error
    return .ok true
  catch error => return .error (.ofSystem error)

/-- Write a real file unless it holds the given contents. -/
def writeFile (path : String) (contents : ByteArray) : IO (Except FileError Bool) := do
  match ← readFile path with
  | .ok existing => if existing = contents then return .ok false else replaceFile path contents
  | .error .notFound => replaceFile path contents
  | .error e => return .error e

end IsaForge

open IsaForge in
/-- Compile a description as the arguments say. -/
def main (arguments : List String) : IO UInt32 := do
  let outcome ← runArguments ⟨readFile, writeFile⟩ arguments
  for line in outcome.output do
    IO.println line
  for line in outcome.messages do
    IO.eprintln line
  return outcome.code
