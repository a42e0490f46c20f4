import BuildMatrix.CommandLine.Commands
import Std.Time.DateTime.Timestamp

/-!
# The program

The program takes a picture of the files below its current directory, calls the library on it and
prints what comes of the call. The commands of a run are carried out within the picture, whose
programs are the tools of the library's host and the scripts among the files; the files themselves
stay as they are.
-/

namespace BuildMatrix.CommandLine

/-- Whether a file is a script, which may be run as a program. -/
def isScript (contents : Bytes) : Bool := contents.take 2 == Utf8.encode "#!"

/-- The files of directory entries and of the directories among them; links are left out. -/
partial def layoutOf (entries : List IO.FS.DirEntry) : IO Layout := do
  let layouts ← entries.mapM fun entry => do
    let path := entry.path.toString
    match (← entry.path.symlinkMetadata).type with
    | .dir => return (path, .directory) :: (← layoutOf (← entry.path.readDir).toList)
    | .file =>
      let contents := (← IO.FS.readBinFile entry.path).toList
      return [(path, .file contents (isScript contents))]
    | _ => return []
  return layouts.flatten

def picture : IO FileSystem := do
  let directory ← IO.currentDir
  let layout ← layoutOf (← directory.readDir).toList
  let files := Layout.make "/" .empty ((directory.toString, .directory) :: layout)
  return Shell.withTools { files with workingDirectory := Path.names directory.toString }

/-- The names of the variables that the program looks at. -/
def variableNames : List String :=
  ["PATH", "HOME", "LANG", "TMPDIR", "XDG_DATA_HOME", "CLICOLOR_FORCE"]

/-- The variables that the program looks at. -/
def currentEnvironment : IO Environment := do
  let entries ← variableNames.mapM fun name => do
    return (← IO.getEnv name).map fun value => (name, value)
  return Environment.ofList (entries.filterMap id)

/-- The time of the clock. -/
def currentInstant : IO Instant := do
  let now := (← Std.Time.Timestamp.now).toNanosecondsSinceUnixEpoch.toInt
  return ⟨now / 1000000000, (now % 1000000000).toNat⟩

/-- An identifier chosen at random, marked as such by its 13th and 17th digit. -/
def randomIdent : IO Ident := do
  let bytes ← IO.getRandomBytes 16
  let digits := bytes.toList.flatMap fun b => [Json.hexDigit (b.toNat / 16), Json.hexDigit b.toNat]
  return (Ident.ofDigits? ((digits.set 12 '4').set 16 '8')).getD .zero

end BuildMatrix.CommandLine

/-- Calls the library with the arguments of the program. -/
def main (arguments : List String) : IO UInt32 := do
  let situation : BuildMatrix.CommandLine.Situation :=
    ⟨← BuildMatrix.CommandLine.currentEnvironment, ← BuildMatrix.CommandLine.currentInstant,
      ← BuildMatrix.CommandLine.randomIdent⟩
  let session : BuildMatrix.CommandLine.Session :=
    ⟨← BuildMatrix.CommandLine.picture, .empty⟩
  let (_, outcome) := BuildMatrix.CommandLine.callLocally situation session arguments
  IO.print outcome.stdout
  if let some causes := outcome.error then
    IO.eprint (BuildMatrix.CommandLine.errorText causes)
  return outcome.exitCode.toUInt32
