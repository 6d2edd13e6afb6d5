import StaticSite.FileTree.Basic
/-!
# StaticSite.FileTree.Changes

How two trees differ. A file in place of a directory is both: the directory is gone, and the file is
new.
-/

set_option autoImplicit false

namespace StaticSite

/-- An entry of a tree: its place, and its content unless it is a directory. -/
abbrev Entry := Place × Option ByteArray

/-- How a tree differs from an earlier one. -/
structure Changes where
  /-- The entries that are new or have a new content; a directory stands before its entries. -/
  written : List Entry
  /-- The entries that are gone; a directory stands before its entries. -/
  removed : List Entry

namespace FileTree

mutual

/-- All entries below a place; a directory stands before its entries. -/
def entriesBelow (place : Place) : FileTree → List Entry
  | file content => [(place, some content)]
  | directory entries => (place, none) :: entriesOf place entries

/-- All entries of a directory at a place. -/
def entriesOf (place : Place) : List (String × FileTree) → List Entry
  | [] => []
  | (name, entry) :: rest => entriesBelow (place ++ [name]) entry ++ entriesOf place rest

end

/-- Whether an entry is in the tree with the same content. -/
def hasEntry (tree : FileTree) : Entry → Bool
  | (place, none) => (tree.at? place).any isDirectory
  | (place, some content) =>
    match tree.at? place with
    | some (file other) => content == other
    | _ => false

/-- Whether an entry is in the tree, with any content. -/
def hasKind (tree : FileTree) : Entry → Bool
  | (place, content) => (tree.at? place).any fun entry => entry.isDirectory == content.isNone

/-- How the tree differs from an earlier one. -/
def changesSince (after before : FileTree) : Changes where
  written := (entriesOf [] after.entries).filter fun entry => !before.hasEntry entry
  removed := (entriesOf [] before.entries).filter fun entry => !after.hasKind entry

end FileTree

end StaticSite
