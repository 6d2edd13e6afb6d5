import StaticSite.Config.Basic
import StaticSite.Content.Author
import StaticSite.Site.Category
/-!
# StaticSite.Site.Page

The pages of a site, planned before any of them is made: for each page its template, its address
and the data that its template sees besides the site itself.
-/

set_option autoImplicit false

namespace StaticSite

/-- What pages are made from. -/
structure Site where
  settings : SiteSettings
  /-- The newest first. -/
  articles : List Article
  authors : Authors
  games : List Game
deriving Inhabited

/-- A page that is to be made. -/
structure Page where
  template : String
  address : String
  data : Fields Json
deriving Inhabited

namespace Site

/-- What templates know about the articles. -/
def metadata (site : Site) : List ArticleMetadata := site.articles.map Article.metadata

/-- The context of a page: its data, and the site as `site`. -/
def context (site : Site) (page : Page) : Value :=
  .ofJson (.object (page.data.set "site" site.settings.toJson))

/-- The banner of a page. -/
def hero (image title subtitle : String) : Json :=
  .object (Fields.ofList [("image", .string image), ("title", .string title),
    ("subtitle", .string subtitle)])

/-- A list of articles as templates see it. -/
def listing (articles : List ArticleMetadata) : Json := .array (articles.map ArticleMetadata.toJson)

/-- The most featured articles on the home page. -/
def featuredLimit : Nat := 3

/-- The most recent articles on the home page. -/
def recentLimit : Nat := 6

/-- The home page: featured and recent articles. -/
def homePage (site : Site) : Page where
  template := "index"
  address := "/"
  data := Fields.ofList [
    ("featuredArticles",
      listing ((site.metadata.filter ArticleMetadata.featured).take featuredLimit)),
    ("articles", listing (site.metadata.take recentLimit)),
    ("authors", .object site.authors),
    ("hero", hero "/assets/images/hero.png" site.settings.title site.settings.description)]

/-- The page of an article. -/
def articlePage (site : Site) (article : Article) : Page where
  template := "article"
  address := "/articles/" ++ article.metadata.slug
  data := Fields.ofList [
    ("article", article.metadata.toJson),
    ("author", authorOf site.authors article.metadata.author),
    ("content", .string article.content)]

/-- The page of an author: the articles under the name that is the author's. -/
def authorPage (site : Site) (author : String × Json) : Page where
  template := "author"
  address := "/authors/" ++ author.1
  data := Fields.ofList [
    ("author", author.2),
    ("articles", listing (site.metadata.filter fun article => article.author = author.1))]

/-- Whether an article is news. -/
def isNews (article : ArticleMetadata) : Bool := article.isTagged "news"

/-- Whether an article is a guide. -/
def isGuide (article : ArticleMetadata) : Bool :=
  article.isTagged "guide" || article.isTagged "guides"

/-- The page that lists news. -/
def newsPage (site : Site) : Page where
  template := "news"
  address := "/news"
  data := Fields.ofList [
    ("articles", listing (site.metadata.filter isNews)),
    ("hero", hero "/assets/images/hero-news.png" "Latest News"
      "Updates, announcements, and developments for the games we cover.")]

/-- The page that lists guides. -/
def guidesPage (site : Site) : Page where
  template := "guides"
  address := "/guides"
  data := Fields.ofList [
    ("articles", listing (site.metadata.filter isGuide)),
    ("hero", hero "/assets/images/hero-guides.png" "Guides & Tutorials"
      "In-depth strategy, progression help, and knowledge for players.")]

/-- The page that lists games. Since an empty list is truthy, two flags say whether there are
any. -/
def gamesPage (site : Site) : Page where
  template := "games"
  address := "/games"
  data := Fields.ofList [
    ("games", .array (site.games.map Game.toJson)),
    ("hasGames", .bool !site.games.isEmpty),
    ("noGames", .bool site.games.isEmpty),
    ("hero", hero "/assets/images/hero-games.png" "Games"
      "Select a game to view all related articles.")]

/-- The page about the authors. -/
def aboutPage (site : Site) : Page where
  template := "about"
  address := "/about"
  data := Fields.ofList [
    ("authors", .object site.authors),
    ("hero", hero "/assets/images/hero-about.png" "About Us" "Learn more about our stuff.")]

/-- The page of a category. -/
def categoryPage (site : Site) (category : Category) : Page where
  template := "category"
  address := "/categories/" ++ category.slug
  data := Fields.ofList [
    ("category", .string category.name),
    ("categorySlug", .string category.slug),
    ("articles", listing category.articles),
    ("hero", hero (Category.image site.games category.slug) category.name
      ("Articles related to " ++ category.name))]

/-- The record of the whole site: its articles, its authors and what it says about itself. -/
def data (site : Site) : Json :=
  .object (Fields.ofList [("articles", listing site.metadata), ("authors", .object site.authors),
    ("site", site.settings.toJson)])

end Site

/-! ### Stages

The stages run in the order of this list, and a page takes the place of an earlier one in the same
file. Only the page of an article or an author may be missing in a build that succeeds. -/

/-- A step of a build that makes pages. -/
structure Stage where
  name : String
  /-- Whether a page that cannot be made is left out. Otherwise it ends the build. -/
  lenient : Bool
  pages : Site → List Page

/-- The steps that make pages, in order. -/
def pageStages : List Stage :=
  [⟨"index", false, fun site => [site.homePage]⟩,
   ⟨"articles", true, fun site => site.articles.map site.articlePage⟩,
   ⟨"authors", true, fun site => site.authors.map site.authorPage⟩,
   ⟨"news", false, fun site => [site.newsPage]⟩,
   ⟨"guides", false, fun site => [site.guidesPage]⟩,
   ⟨"games", false, fun site => [site.gamesPage]⟩,
   ⟨"about", false, fun site => [site.aboutPage]⟩,
   ⟨"categories", false, fun site =>
      (Category.ofArticles site.metadata).map site.categoryPage⟩]

/-- The name of the step that copies files. -/
def assetsStage : String := "static"

/-- The name of the step that writes the record of the site. -/
def dataStage : String := "data"

/-- The names of all steps, in order. -/
def stageNames : List String := pageStages.map Stage.name ++ [assetsStage, dataStage]

end StaticSite
