import StaticSite.FileTree.Walk
/-!
# StaticSite.FileTree.Action

What can be done to a tree. `makeDirectory` and `write` either succeed or leave the tree alone. The
larger operations are tasks that go through several trees; what a task has done before it fails
stays done.

* `makeDirectories` makes a directory and those above it.
* `remove` removes a directory with everything in it.
* `copy` copies the content of a directory.
-/

set_option autoImplicit false

namespace StaticSite

/-- A task on a tree of files. -/
abbrev FileTask (α : Type) := EStateM IoError FileTree α

namespace FileTree

/-- Makes a directory in one that is there. -/
def makeDirectory (tree : FileTree) (p : Path) : Except IoError FileTree :=
  match tree.target p with
  | .error e => .error e
  | .ok (.present _) => .error .alreadyExists
  | .ok (.entry parent name) =>
    match tree.at? (parent ++ [name]) with
    | some _ => .error .alreadyExists
    | none => .ok (tree.set empty (parent ++ [name]))

/-- Writes a file in a directory that is there, in place of an earlier one. -/
def write (tree : FileTree) (p : Path) (content : ByteArray) : Except IoError FileTree :=
  match tree.target p with
  | .error e => .error e
  | .ok (.present _) => .error .isDirectory
  | .ok (.entry parent name) =>
    if p.namesDirectory then .error .isDirectory
    else
      match tree.at? (parent ++ [name]) with
      | some (directory _) => .error .isDirectory
      | _ => .ok (tree.set (file content) (parent ++ [name]))

end FileTree

namespace FileTask

/-- Does a step that leaves the tree alone if it fails. -/
def step (act : FileTree → Except IoError FileTree) : FileTask Unit := fun tree =>
  match act tree with
  | .ok tree => .ok () tree
  | .error e => .error e tree

/-- Reads something from the tree. -/
def ask {α : Type} (read : FileTree → Except IoError α) : FileTask α := fun tree =>
  match read tree with
  | .ok a => .ok a tree
  | .error e => .error e tree

/-- Makes a directory unless it is there. -/
def makeDirectory (p : Path) : FileTask Unit := fun tree =>
  match tree.makeDirectory p with
  | .ok tree => .ok () tree
  | .error e => if tree.holdsDirectory p then .ok () tree else .error e tree

/-- Makes the first directory of a list of which each other is the parent of the one before. The
parent is made if the directory cannot be made without it. -/
def makeChain : List Path → FileTask Unit
  | [] => throw .notFound
  | p :: parents => fun tree =>
    match makeDirectory p tree with
    | .error .notFound tree => (makeChain parents *> makeDirectory p) tree
    | result => result

/-- Makes a directory and those above it, as far as they are missing. -/
def makeDirectories (p : Path) : FileTask Unit :=
  if p.chars.isEmpty then pure () else makeChain p.chain

/-- Writes a file. -/
def write (p : Path) (content : ByteArray) : FileTask Unit := step (·.write p content)

/-- Writes a file and makes its directory, as far as it is missing. -/
def writeInside (p : Path) (content : ByteArray) : FileTask Unit := do
  match p.parent? with
  | some parent => makeDirectories parent
  | none => pure ()
  write p content

/-- Removes a directory with everything in it. If the path ends in `.` the directory itself cannot
be removed, and if it ends in `..` it stays, since the path leads nowhere any more. -/
def remove (p : Path) : FileTask Unit := fun tree =>
  match tree.find p with
  | .error e => .error e tree
  | .ok (_, .file _) => .error .notDirectory tree
  | .ok (place, .directory _) =>
    match p.steps.getLast? with
    | some ".." => .ok () (tree.set .empty place)
    | some "." | none => .error .invalid (tree.set .empty place)
    | some _ => .ok () (tree.erase place)

/-- Copies the content of `source` into `goal` and returns the number of files. Each directory on
the way makes both paths longer, so the length of a path bounds how deep this goes; `fuel` is as
much. -/
def copyWith : Nat → Path → Path → FileTask Nat
  | 0, _, _ => throw .nameTooLong
  | fuel + 1, source, goal => do
    makeDirectories goal
    let entries ← ask (·.list source)
    entries.foldlM (fun count (name, entry) => do
      match entry with
      | .directory _ =>
        let more ← copyWith fuel (source.child name) (goal.child name)
        pure (count + more)
      | .file _ =>
        let content ← ask (·.read (source.child name))
        write (goal.child name) content
        pure (count + 1)) 0

/-- Copies the content of a directory into another and returns the number of files. -/
def copy (source goal : Path) : FileTask Nat := copyWith (maxPathBytes + 2) source goal

end FileTask

end StaticSite
