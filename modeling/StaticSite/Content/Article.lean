import StaticSite.Slug
import StaticSite.Template.Value
import StaticSite.Text.Blank
import StaticSite.Text.Split
import StaticSite.Time.Reading
/-!
# StaticSite.Content.Article

Articles and what templates know about them. The front matter of an article is kept as it is, except
for eleven keys that always have a value of their own: the title, the description, the date, the
author, the categories by name and with their slugs, the tag and its link, the excerpt, the slug,
and whether the article is featured.
-/

set_option autoImplicit false

namespace StaticSite

/-- The string form of a value that is truthy. -/
def truthyText? (value : Option Json) : Option String :=
  match value with
  | none => none
  | some json =>
    let value := Value.ofJson json
    if value.isTruthy then some (String.ofList value.text) else none

/-- What templates know about an article. -/
structure ArticleMetadata where
  /-- The front matter under all other keys. -/
  extra : Fields Json
  title : String
  description : String
  date : String
  author : String
  /-- The names of its categories, in the order in which they are first listed. -/
  categories : List String
  tag : String
  excerpt : String
  slug : String
  featured : Bool
deriving Inhabited

/-- An article. -/
structure Article where
  metadata : ArticleMetadata
  /-- The body as HTML. -/
  content : String
deriving Inhabited

namespace Article

/-- The most characters of an excerpt that is taken from the body. -/
def excerptLength : Nat := 150

/-- The start of the first paragraph, without the marks of a heading. -/
def excerptOf (body : List Char) : List Char :=
  let first := match Text.cutAt? ['\n', '\n'] body with
    | some (first, _) => first
    | none => body
  let first := match first with
    | '#' :: rest => Text.trimStart (rest.dropWhile (· == '#'))
    | _ => first
  first.take excerptLength ++ "...".toList

/-- The list without the elements that have occurred before. -/
def distinct : List String → List String
  | [] => []
  | name :: rest => name :: (distinct rest).filter (· ≠ name)

/-- The names of the categories. Anything but a list names none. -/
def categoriesOf (value : Option Json) : List String :=
  match value with
  | some (.array items) =>
    distinct (items.map fun item => String.ofList (Value.ofJson item).text)
  | _ => []

/-- The tag of an article without one. -/
def defaultTag : String := "News"

/-- The text of a tag: `tags` if it is text or a list with a first item, or else `tag` if it is
text. -/
def tagText (frontMatter : Fields Json) : List Char :=
  let single := match frontMatter.get? "tag" with
    | some (.string tag) => Text.trim tag.toList
    | _ => []
  match frontMatter.get? "tags" with
  | some (.string tags) => Text.trim tags.toList
  | some (.array (first :: _)) => Text.trim (Value.ofJson first).text
  | _ => single

/-- The tag of an article. -/
def tagOf (frontMatter : Fields Json) : String :=
  match tagText frontMatter with
  | [] => defaultTag
  | text => String.ofList text

/-- The address of the page that lists a tag. -/
def tagLink (tag : String) : String :=
  let lower := Text.lower tag.toList
  if lower = "news".toList then "/news"
  else if lower = "guide".toList ∨ lower = "guides".toList then "/guides"
  else "/tags/" ++ slugify tag

/-- The keys that always have a value of their own. -/
def ownKeys : List String :=
  ["title", "description", "date", "author", "categories", "categoriesData", "tag", "tagLink",
    "excerpt", "slug", "featured"]

end Article

namespace ArticleMetadata

open Article

/-- What templates know about an article with this front matter, body and file name stem, where an
article without a date is dated `now`. -/
def ofFrontMatter (now : Instant) (frontMatter : Fields Json) (body : List Char) (slug : String) :
    ArticleMetadata :=
  let excerpt := (truthyText? (frontMatter.get? "excerpt")).getD (String.ofList (excerptOf body))
  { extra := frontMatter.filter fun field => !ownKeys.contains field.1
    title := (truthyText? (frontMatter.get? "title")).getD "Untitled"
    description := (truthyText? (frontMatter.get? "description")).getD excerpt
    date := (truthyText? (frontMatter.get? "date")).getD (String.ofList now.text)
    author := (truthyText? (frontMatter.get? "author")).getD "Anonymous"
    categories := categoriesOf (frontMatter.get? "categories")
    tag := tagOf frontMatter
    excerpt := excerpt
    slug := slug
    featured := match frontMatter.get? "featured" with
      | some value => (Value.ofJson value).isTruthy
      | none => false }

/-- The categories, each by its name and its slug. -/
def categoriesData (metadata : ArticleMetadata) : List Json :=
  metadata.categories.map fun name =>
    .object (Fields.ofList [("name", .string name), ("slug", .string (slugify name))])

/-- The eleven keys and their values. -/
def ownFields (metadata : ArticleMetadata) : List (String × Json) :=
  [("title", .string metadata.title),
   ("description", .string metadata.description),
   ("date", .string metadata.date),
   ("author", .string metadata.author),
   ("categories", .array (metadata.categories.map Json.string)),
   ("categoriesData", .array metadata.categoriesData),
   ("tag", .string metadata.tag),
   ("tagLink", .string (tagLink metadata.tag)),
   ("excerpt", .string metadata.excerpt),
   ("slug", .string metadata.slug),
   ("featured", .bool metadata.featured)]

/-- The record that templates see. -/
def toJson (metadata : ArticleMetadata) : Json :=
  .object <| metadata.ownFields.foldl (fun fields field => Fields.set fields field.1 field.2)
    metadata.extra

/-- Whether the tag is `name`, whatever the case of its letters. -/
def isTagged (metadata : ArticleMetadata) (name : String) : Bool :=
  Text.equalIgnoringCase metadata.tag.toList name.toList

/-- The time of publication, if the date can be read. -/
def published? (metadata : ArticleMetadata) : Option Instant := Time.read? metadata.date.toList

end ArticleMetadata

end StaticSite
