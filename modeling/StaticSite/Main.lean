import StaticSite.Command.Run
import StaticSite.FileTree.Changes
/-!
# StaticSite.Main

The program. It reads the part of the file system that a command reaches, runs the command on that
tree, and writes what the command has changed. All else is decided by the library.
-/

set_option autoImplicit false

namespace StaticSite.Program

/-! ### Reading -/

/-- The entry called `name` of a directory. -/
def entryOf (directory name : String) : IO.FS.DirEntry := ⟨directory, name⟩

/-- Whether there is a directory at a path. -/
def isDirectory (path : String) : IO Bool := (entryOf path ".").path.isDir

/-- What stands at a path, as far as it can be read. -/
partial def readTree (path : String) : IO (Option FileTree) := do
  if ← isDirectory path then
    let mut tree := FileTree.empty
    for entry in ← (entryOf path ".").path.readDir do
      if let some child ← readTree (path ++ "/" ++ entry.fileName) then
        tree := tree.set child [entry.fileName]
    return some tree
  else
    try return some (.file (← IO.FS.readBinFile path))
    catch _ => return none

/-- The place of a path. -/
def placeOf (path : Path) : Place := path.normalize.steps

/-- Adds what stands at a path to a tree, with the directories on the way. -/
def addPath (tree : FileTree) (path : Path) : IO FileTree := do
  let mut tree := tree
  for parent in path.chain.tail.reverse do
    if (tree.at? (placeOf parent)).isNone then
      if ← isDirectory parent.toString then tree := tree.set .empty (placeOf parent)
  if let some found ← readTree path.toString then tree := tree.set found (placeOf path)
  return tree

/-- The variables of the environment. -/
def readEnvironment : IO Environment := do
  try
    let text := Text.decode (← IO.FS.readBinFile "/proc/self/environ")
    return (Text.splitAtEach (· == '\x00') text).filterMap fun assignment =>
      (Text.cutAt? ['='] assignment).map fun (name, value) =>
        (String.ofList name, String.ofList value)
  catch _ => return []

/-- The current time: that of a new file. -/
def readTime : IO Instant := do
  let (_, path) ← IO.FS.createTempFile
  let time := (← path.metadata).modified
  IO.FS.removeFile path
  return ⟨time.sec, time.nsec.toNat⟩

/-! ### Writing -/

/-- The path of a place, as text. -/
def textOf (place : Place) : String := (Path.ofPlace place).toString

/-- Makes the changes. -/
def apply (changes : Changes) : IO Unit := do
  for (place, content) in changes.removed.reverse do
    if content.isSome then IO.FS.removeFile (textOf place) else IO.FS.removeDir (textOf place)
  for (place, content) in changes.written do
    match content with
    | some bytes => IO.FS.writeBinFile (textOf place) bytes
    | none => IO.FS.createDir (textOf place)

/-- Prints what is left to be said after a command. -/
def conclude : EStateM.Result CommandError Work Outcome → IO UInt32
  | .ok .finished _ => return 0
  | .ok (.serving _ url) _ => do
    IO.eprintln ("Error: cannot listen at " ++ url)
    return 1
  | .error e _ => do
    IO.eprintln ("Error: " ++ e.message "the settings are malformed")
    return 1

/-- The work of a finished or failed command. -/
def workOf : EStateM.Result CommandError Work Outcome → Work
  | .ok _ work | .error _ work => work

/-- Runs a command on the file system. -/
def execute (command : Command) : IO UInt32 := do
  let directory := Path.ofString (← IO.currentDir).toString
  let place : Workplace := ⟨directory, ← readEnvironment, ← readTime⟩
  let mut files ← addPath .empty (directory.child ".")
  for path in command.configFiles place do
    files ← addPath files path
  for path in command.directories place files do
    files ← addPath files path
  let result := command.run place (.start files)
  apply ((workOf result).files.changesSince files)
  for line in (workOf result).printed do
    IO.println line
  conclude result

end StaticSite.Program

/-- Runs the command that the arguments ask for. -/
def main (words : List String) : IO UInt32 := do
  match StaticSite.Invocation.ofArguments words with
  | .run command => StaticSite.Program.execute command
  | .version =>
    IO.println StaticSite.versionLine
    return 0
  | .help =>
    IO.println StaticSite.usage
    return 0
  | .misuse =>
    IO.eprintln StaticSite.usage
    return 2
