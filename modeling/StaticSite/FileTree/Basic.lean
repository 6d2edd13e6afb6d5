import StaticSite.Fields
/-!
# StaticSite.FileTree.Basic

Trees of files. A *place* is the list of names that lead from the root of a tree to one of its
entries.

* `at?` finds what stands at a place.
* `set` puts something at a place, and `erase` takes it away; other places keep what they have.
-/

set_option autoImplicit false

namespace StaticSite

/-- A file, or a directory with named entries. -/
inductive FileTree where
  | file (content : ByteArray)
  | directory (entries : List (String × FileTree))
deriving Inhabited

/-- The names that lead from the root to an entry. -/
abbrev Place := List String

namespace FileTree

/-- The directory without entries. -/
def empty : FileTree := directory []

/-- Whether this is a directory. -/
def isDirectory : FileTree → Bool
  | file _ => false
  | directory _ => true

/-- The entries of a directory. A file has none. -/
def entries : FileTree → Fields FileTree
  | file _ => []
  | directory entries => entries

/-- What stands at a place. -/
def at? (tree : FileTree) : Place → Option FileTree
  | [] => some tree
  | name :: rest =>
    match tree.entries.get? name with
    | some entry => entry.at? rest
    | none => none

/-- The tree with `new` at a place. The place is in a directory of the tree. -/
def set (tree : FileTree) (new : FileTree) : Place → FileTree
  | [] => new
  | name :: rest =>
    match tree with
    | file content => file content
    | directory entries =>
      directory (Fields.set entries name (((Fields.get? entries name).getD empty).set new rest))

/-- The tree without what stands at a place. The root loses its entries. -/
def erase (tree : FileTree) : Place → FileTree
  | [] => empty
  | [name] =>
    match tree with
    | file content => file content
    | directory entries => directory (Fields.erase entries name)
  | name :: rest =>
    match tree with
    | file content => file content
    | directory entries =>
      match Fields.get? entries name with
      | some entry => directory (Fields.set entries name (entry.erase rest))
      | none => directory entries

end FileTree

end StaticSite
