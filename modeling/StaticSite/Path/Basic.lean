import StaticSite.Text.Split
/-!
# StaticSite.Path.Basic

Paths as they are written, and the components that they name. Slashes separate components; a run of
slashes counts as one, a component `.` counts only at the start of a relative path, and two paths
name the same place if they have the same components.

* `join` and `parent?` keep the rest of a path as it is written.
* `normalize` removes `.` and folds `..` into the component before it, by the text alone.
* `startsWith` compares whole components, so `dist2` does not start with `dist`.
-/

set_option autoImplicit false

namespace StaticSite

/-- A path, as it is written. -/
structure Path where
  chars : List Char
deriving DecidableEq, Inhabited, Repr

/-- A step of a path. -/
inductive Component where
  /-- The start of an absolute path. -/
  | root
  /-- The start of a relative path that is written with a point. -/
  | current
  | parent
  | normal (name : String)
deriving DecidableEq, Inhabited, Repr

namespace Component

/-- How a component is written. -/
def text : Component → List Char
  | root => ['/']
  | current => ['.']
  | parent => ['.', '.']
  | normal name => name.toList

/-- The component that stands between two slashes, if there is one. -/
def ofPiece? (piece : List Char) : Option Component :=
  if piece = [] ∨ piece = ['.'] then none
  else if piece = ['.', '.'] then some parent
  else some (normal (String.ofList piece))

end Component

namespace Path

/-- The path written as `s`. -/
def ofString (s : String) : Path := ⟨s.toList⟩

/-- How the path is written. -/
def toString (p : Path) : String := String.ofList p.chars

/-- The texts between the slashes of a text. -/
def pieces (s : List Char) : List (List Char) := Text.splitAtEach (· == '/') s

/-- The components of a path. -/
def components (p : Path) : List Component :=
  match p.chars with
  | '/' :: rest => .root :: (pieces rest).filterMap Component.ofPiece?
  | chars =>
    match pieces chars with
    | ['.'] :: rest => .current :: rest.filterMap Component.ofPiece?
    | all => all.filterMap Component.ofPiece?

/-- The path written with exactly these components. -/
def ofComponents : List Component → Path
  | .root :: rest => ⟨'/' :: Text.join ['/'] (rest.map Component.text)⟩
  | all => ⟨Text.join ['/'] (all.map Component.text)⟩

/-- Whether the path starts at the root. -/
def isAbsolute (p : Path) : Bool := p.chars.head? == some '/'

/-- The path `q` as seen from `p`. An absolute path looks the same from everywhere. -/
def join (p q : Path) : Path :=
  if q.isAbsolute then q
  else if p.chars = [] ∨ p.chars.getLast? = some '/' then ⟨p.chars ++ q.chars⟩
  else ⟨p.chars ++ '/' :: q.chars⟩

/-- The path of something called `name` inside of `p`. -/
def child (p : Path) (name : String) : Path := p.join (ofString name)

/-- The texts between slashes at the end of a path that name nothing, in reverse order. -/
def dropSilent (reversed : List (List Char)) : List (List Char) :=
  reversed.dropWhile fun piece => piece == [] || piece == ['.']

/-- The path without its last component. The root and the empty path have none. -/
def parent? (p : Path) : Option Path :=
  let rest := fun (s : List Char) => dropSilent (pieces s).reverse
  match p.chars with
  | '/' :: s =>
    match rest s with
    | [] => none
    | _ :: before => some ⟨'/' :: Text.join ['/'] (dropSilent before).reverse⟩
  | ['.'] => some ⟨[]⟩
  | '.' :: '/' :: s =>
    match rest s with
    | [] => some ⟨[]⟩
    | _ :: before => some ⟨Text.join ['/'] (['.'] :: (dropSilent before).reverse)⟩
  | s =>
    match rest s with
    | [] => none
    | _ :: before => some ⟨Text.join ['/'] (dropSilent before).reverse⟩

/-- The path and the directories above it, up to `count` of them. -/
def chainWith : Nat → Path → List Path
  | 0, p => [p]
  | count + 1, p =>
    match p.parent? with
    | some parent => p :: chainWith count parent
    | none => [p]

/-- The path and all directories above it: each has one component less. -/
def chain (p : Path) : List Path := chainWith p.components.length p

/-- The name at the end of a path. -/
def fileName? (p : Path) : Option String :=
  match p.components.getLast? with
  | some (.normal name) => some name
  | _ => none

/-- A file name cut at its last point: what stands before, and after it. A name without a point, or
with one at its start only, has no second part. -/
def cutName (name : List Char) : List Char × Option (List Char) :=
  let reversed := name.reverse
  match reversed.dropWhile (· != '.') with
  | [] | ['.'] => (name, none)
  | _ :: before => (before.reverse, some (reversed.takeWhile (· != '.')).reverse)

/-- The file name before its last point. -/
def stem? (p : Path) : Option String :=
  p.fileName?.map fun name => String.ofList (cutName name.toList).1

/-- The file name after its last point. -/
def extension? (p : Path) : Option String :=
  p.fileName?.bind fun name => (cutName name.toList).2.map String.ofList

/-- Whether the components of `dir` are the first components of `p`. -/
def startsWith (p dir : Path) : Bool := dir.components.isPrefixOf p.components

/-- One step of folding. The components so far are in reverse order. -/
def foldStep (folded : List Component) : Component → List Component
  | .current => folded
  | .parent =>
    match folded with
    | .normal _ :: rest => rest
    | .root :: rest => .root :: rest
    | _ => .parent :: folded
  | c => c :: folded

/-- The components that are left when `.` is removed and `..` is folded into the name before it. At
the root `..` changes nothing; at the start of a relative path it stays. -/
def foldComponents (components : List Component) : List Component :=
  (components.foldl foldStep []).reverse

/-- The path with its components folded. -/
def normalize (p : Path) : Path := ofComponents (foldComponents p.components)

/-- A configured path, seen from `base`. -/
def resolve (base p : Path) : Path := if p.isAbsolute then p else base.join p

/-- The directory of a file: the working directory if the path names none. -/
def directory (p : Path) : Path := p.parent?.getD ⟨['.']⟩

end Path

end StaticSite
