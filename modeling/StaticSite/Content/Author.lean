import StaticSite.Json.Basic
/-!
# StaticSite.Content.Author

Author records. They are shown as they are; an author without a readable record has one with nothing
but a name.
-/

set_option autoImplicit false

namespace StaticSite

/-- Author records by the stem of their file names. -/
abbrev Authors := Fields Json

/-- The record of an author of whom only a name is known. -/
def fallbackAuthor (name : String) : Json :=
  .object (Fields.ofList [("name", .string name), ("bio", .string ""), ("links", .object [])])

/-- The record of the author of an article. A null record counts as none. -/
def authorOf (authors : Authors) (name : String) : Json :=
  match authors.get? name with
  | some record => if record.isNull then fallbackAuthor name else record
  | none => fallbackAuthor name

end StaticSite
