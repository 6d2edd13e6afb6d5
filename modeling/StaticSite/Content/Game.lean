import StaticSite.Content.Article
/-!
# StaticSite.Content.Game

Games. A missing title or slug is the stem of the file name; the other members of the record are
kept as they are, if they are there.
-/

set_option autoImplicit false

namespace StaticSite

/-- A game. -/
structure Game where
  title : String
  slug : String
  description : String
  image : Option Json
  release : Option Json
  officialSite : Option Json
deriving Inhabited

namespace Game

/-- The game that a record in a file with the name stem `stem` describes. -/
def ofJson (data : Json) (stem : String) : Game :=
  { title := (truthyText? (data.get? "title")).getD stem
    slug := (truthyText? (data.get? "slug")).getD stem
    description := (truthyText? (data.get? "description")).getD ""
    image := data.get? "image"
    release := data.get? "release"
    officialSite := data.get? "officialSite" }

/-- The image, if it is text and not empty. -/
def imageUrl? (game : Game) : Option String :=
  match game.image with
  | some (.string s) => if s = "" then none else some s
  | _ => none

/-- The record that templates see. -/
def toJson (game : Game) : Json :=
  let kept := fun (name : String) (value : Option Json) =>
    match value with
    | some json => [(name, json)]
    | none => []
  .object <| Fields.ofList <|
    [("title", .string game.title), ("slug", .string game.slug),
     ("description", .string game.description)]
      ++ kept "image" game.image ++ kept "release" game.release
      ++ kept "officialSite" game.officialSite

end Game

end StaticSite
