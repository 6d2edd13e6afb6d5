import StaticSite.Content.Article
import StaticSite.Content.Author
import StaticSite.Content.FrontMatter
import StaticSite.Content.Game
import StaticSite.FileTree.Walk
import StaticSite.Json.Parser
import StaticSite.Markdown.Html
/-!
# StaticSite.Content.Loading

Loading the content of a site from its directories.

* Articles are the markdown files of their directory, the newest first; those without a readable
  date come last. All have to be readable.
* Authors are the JSON files of theirs. One that cannot be read stands for an author of whom only
  the name is known.
* Games are the JSON files of theirs. Those that cannot be read are left out, and so is the
  directory.
-/

set_option autoImplicit false

namespace StaticSite

/-- Why content could not be loaded. -/
inductive ContentError where
  | unreadable (path : Path) (cause : IoError)
  /-- The article at the path cannot be shown, since there is no such extension of markdown. -/
  | unknownExtension (path : Path) (name : String)
deriving DecidableEq, Inhabited, Repr

/-- What is reported, given the wording of what went wrong with a file. -/
def ContentError.message (wording : IoError → String) : ContentError → String
  | unreadable path cause => "failed to read " ++ path.toString ++ ": " ++ wording cause
  | unknownExtension path name =>
    "failed to render " ++ path.toString ++ ": invalid markdown extension: " ++ name

/-! ### Files by extension -/

/-- Whether the name of a file ends in an extension, whatever the case of its letters. -/
def hasExtension (extension : String) (name : String) : Bool :=
  match (Path.ofString name).extension? with
  | some found => Text.equalIgnoringCase found.toList extension.toList
  | none => false

/-- The name of a file without its extension. -/
def stemOf (name : String) : String := ((Path.ofString name).stem?).getD ""

/-- The names of the files with an extension in a directory, in ascending order. -/
def FileTree.filesWith (tree : FileTree) (directory : Path) (extension : String) :
    Except ContentError (List String) :=
  match tree.list directory with
  | .error e => .error (.unreadable directory e)
  | .ok entries =>
    let files := entries.filter fun entry => hasExtension extension entry.1 && !entry.2.isDirectory
    .ok ((files.map Prod.fst).mergeSort fun a b => decide (a ≤ b))

/-! ### Articles

An article that cannot be read ends the loading. Articles of one time are in the order of the names
of their files. -/

/-- Loads the article in a file. -/
def loadArticle (tree : FileTree) (extensions : List String) (now : Instant) (directory : Path)
    (name : String) : Except ContentError Article :=
  let path := directory.child name
  match tree.readText path with
  | .error e => .error (.unreadable path e)
  | .ok text =>
    let (frontMatter, body) := FrontMatter.parse text
    match Markdown.Extensions.ofNames extensions with
    | .error name => .error (.unknownExtension path name)
    | .ok extensions =>
      .ok ⟨.ofFrontMatter now frontMatter body (stemOf name),
        String.ofList (Markdown.toHtml extensions body)⟩

/-- Whether a time is not before another. No time is before all times. -/
def isNotBefore : Option Instant → Option Instant → Bool
  | _, none => true
  | none, some _ => false
  | some s, some t => !s.isBefore t

/-- Articles, the newest first. Those of one time keep their order. -/
def newestFirst (articles : List Article) : List Article :=
  let dated := articles.map fun article => (article.metadata.published?, article)
  (dated.mergeSort fun a b => isNotBefore a.1 b.1).map Prod.snd

/-- Loads the articles in a directory. -/
def loadArticles (tree : FileTree) (extensions : List String) (now : Instant) (directory : Path) :
    Except ContentError (List Article) :=
  match tree.filesWith directory "md" with
  | .error e => .error e
  | .ok names =>
    match names.mapM (loadArticle tree extensions now directory) with
    | .error e => .error e
    | .ok articles => .ok (newestFirst articles)

/-! ### Records

A record that cannot be read does not end the loading: that of an author is replaced by one made
from the name of the file, and that of a game is left out. -/

/-- Loads the record in a file, if it can be read. -/
def loadRecord? (tree : FileTree) (path : Path) : Option Json :=
  match tree.readText path with
  | .ok text => Json.parse? text
  | .error _ => none

/-- Loads the authors in a directory. -/
def loadAuthors (tree : FileTree) (directory : Path) : Except ContentError Authors :=
  match tree.filesWith directory "json" with
  | .error e => .error e
  | .ok names =>
    .ok <| Fields.ofList <| names.map fun name =>
      (stemOf name,
        (loadRecord? tree (directory.child name)).getD (fallbackAuthor (stemOf name)))

/-- Loads the games in a directory. -/
def loadGames (tree : FileTree) (directory : Path) : List Game :=
  match tree.filesWith directory "json" with
  | .error _ => []
  | .ok names =>
    names.filterMap fun name =>
      (loadRecord? tree (directory.child name)).map fun data => .ofJson data (stemOf name)

end StaticSite
