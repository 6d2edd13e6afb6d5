import StaticSite.Content.Article
import StaticSite.Content.Game
/-!
# StaticSite.Site.Category

The categories of a site. Two names with one slug name one category; the first spelling is the one
that is shown.

* `Category.ofArticles` groups articles, categories in the order in which they are first named.
* `Category.image` picks the image of a category among the games that go by its slug.
-/

set_option autoImplicit false

namespace StaticSite

/-- A category. -/
structure Category where
  /-- The first spelling of its name. -/
  name : String
  slug : String
  /-- The articles that name it, once for each of their names for it. -/
  articles : List ArticleMetadata
deriving Inhabited

namespace Category

/-- Adds an article to the category of a name. A category that is not there yet comes last. -/
def addArticle (article : ArticleMetadata) (name : String) : List Category → List Category
  | [] => [⟨name, slugify name, [article]⟩]
  | category :: rest =>
    if category.slug = slugify name then
      { category with articles := category.articles ++ [article] } :: rest
    else category :: addArticle article name rest

/-- Adds an article to all its categories. -/
def addAll (categories : List Category) (article : ArticleMetadata) : List Category :=
  article.categories.foldl (fun categories name => addArticle article name categories) categories

/-- The categories of articles. -/
def ofArticles (articles : List ArticleMetadata) : List Category := articles.foldl addAll []

/-- The image of a category without one of its own. -/
def defaultImage : String := "/assets/images/hero-games.png"

/-- The slugs that games go by, with the images of the games. -/
def gameImages (games : List Game) : List (String × Option String) :=
  games.flatMap fun game =>
    [(game.slug, game.imageUrl?), (slugify game.title, game.imageUrl?)]

/-- The image of the category with a slug: that of the last game that goes by it. -/
def image (games : List Game) (slug : String) : String :=
  (((gameImages games).reverse.lookup slug).join).getD defaultImage

end Category

end StaticSite
