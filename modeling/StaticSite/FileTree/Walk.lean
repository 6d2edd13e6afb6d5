import StaticSite.FileTree.Basic
import StaticSite.IoError
import StaticSite.Path.Basic
/-!
# StaticSite.FileTree.Walk

Where a path leads in a tree. The steps of a path are walked one by one: each step before the last
has to lead to a directory that is there, also a step that is undone by `..` later on. So a path can
fail although its folded form would lead somewhere.

* `walk` follows steps through directories.
* `target` says which entry a path names; the entry itself may be missing.
* `find` is what stands there.
-/

set_option autoImplicit false

namespace StaticSite

/-- The most bytes of a name. -/
def maxNameBytes : Nat := 255

/-- The most bytes of a path. -/
def maxPathBytes : Nat := 4095

namespace Path

/-- The texts between the slashes of a path, as far as there are any. -/
def steps (p : Path) : List String :=
  ((pieces p.chars).filter (!·.isEmpty)).map String.ofList

/-- Whether the path ends in a slash, so that it can name directories only. -/
def namesDirectory (p : Path) : Bool := p.chars.getLast? == some '/'

/-- Whether the path is too long to be used. -/
def isTooLong (p : Path) : Bool := decide (maxPathBytes < p.toString.utf8ByteSize)

/-- Whether the path contains the character NUL, which no path can contain. -/
def containsNul (p : Path) : Bool := p.chars.contains '\x00'

/-- The path of a place. -/
def ofPlace (place : Place) : Path := ⟨'/' :: Text.join ['/'] (place.map String.toList)⟩

end Path

namespace FileTree

/-- The place to which a step leads. The root is its own parent. -/
def stepTo (place : Place) (step : String) : Place :=
  if step = "." then place
  else if step = ".." then place.dropLast
  else place ++ [step]

/-- Follows a step into a directory. -/
def enter (tree : FileTree) (place : Place) (step : String) : Except IoError Place :=
  if maxNameBytes < step.utf8ByteSize then .error .nameTooLong
  else
    match tree.at? (stepTo place step) with
    | some (directory _) => .ok (stepTo place step)
    | some (file _) => .error .notDirectory
    | none => .error .notFound

/-- Follows steps from directory to directory. -/
def walk (tree : FileTree) (place : Place) : List String → Except IoError Place
  | [] => .ok place
  | step :: rest =>
    match tree.enter place step with
    | .ok next => tree.walk next rest
    | .error e => .error e

/-- What a path names. -/
inductive Target where
  /-- A directory that is there. -/
  | present (place : Place)
  /-- The entry called `name` of a directory that is there. -/
  | entry (parent : Place) (name : String)
deriving DecidableEq, Inhabited, Repr

/-- The place that is named. -/
def Target.place : Target → Place
  | present place => place
  | entry parent name => parent ++ [name]

/-- What a path names. -/
def target (tree : FileTree) (p : Path) : Except IoError Target :=
  if p.containsNul then .error .nulInName
  else if p.isTooLong then .error .nameTooLong
  else
    match p.steps.getLast? with
    | none => .ok (.present [])
    | some last =>
      match tree.walk [] p.steps.dropLast with
      | .error e => .error e
      | .ok parent =>
        if last = "." ∨ last = ".." then .ok (.present (stepTo parent last))
        else if maxNameBytes < last.utf8ByteSize then .error .nameTooLong
        else .ok (.entry parent last)

/-- The place of a path, and what stands there. -/
def find (tree : FileTree) (p : Path) : Except IoError (Place × FileTree) :=
  match tree.target p with
  | .error e => .error e
  | .ok target =>
    match tree.at? target.place with
    | none => .error .notFound
    | some (file content) =>
      if p.namesDirectory then .error .notDirectory else .ok (target.place, file content)
    | some (directory entries) => .ok (target.place, directory entries)

/-- Whether something stands at a path. -/
def holds (tree : FileTree) (p : Path) : Bool :=
  match tree.find p with
  | .ok _ => true
  | .error _ => false

/-- Whether a directory stands at a path. -/
def holdsDirectory (tree : FileTree) (p : Path) : Bool :=
  match tree.find p with
  | .ok (_, entry) => entry.isDirectory
  | .error _ => false

/-- The path without steps that are undone, if something stands there. -/
def canonical? (tree : FileTree) (p : Path) : Option Path :=
  match tree.find p with
  | .ok (place, _) => some (.ofPlace place)
  | .error _ => none

/-! ### Reading

All reading finds the place of a path first. A directory is not read as a file, and a file is not
listed. -/

/-- The content of a file. -/
def read (tree : FileTree) (p : Path) : Except IoError ByteArray :=
  match tree.find p with
  | .error e => .error e
  | .ok (_, file content) => .ok content
  | .ok (_, directory _) => .error .isDirectory

/-- The content of a file that holds text. -/
def readText (tree : FileTree) (p : Path) : Except IoError (List Char) :=
  match tree.read p with
  | .error e => .error e
  | .ok content =>
    match String.fromUTF8? content with
    | some text => .ok text.toList
    | none => .error .notText

/-- The entries of a directory. -/
def list (tree : FileTree) (p : Path) : Except IoError (Fields FileTree) :=
  match tree.find p with
  | .error e => .error e
  | .ok (_, file _) => .error .notDirectory
  | .ok (_, directory entries) => .ok entries

end FileTree

end StaticSite
