import StaticSite.Path.Basic
/-!
# StaticSite.Command.Starter

What a new site starts with: a configuration in which every setting has its default, directories for
its content, and templates for all of its pages. Double angle quotes stand for double braces here.
-/

set_option autoImplicit false

namespace StaticSite.Starter

/-- The text of lines. Angle quotes become the braces around a marker. -/
def text (lines : List String) : String :=
  String.ofList <| lines.flatMap fun line =>
    line.toList.flatMap (fun c =>
      if c == '«' then ['\x7b', '\x7b'] else if c == '»' then ['\x7d', '\x7d'] else [c])
      ++ ['\n']

/-- The configuration: every setting has its default. -/
def configuration : String := text [
  "site:",
  "  title: Tofu's SSG",
  "  description: Static site generator from markdown files for a blog.",
  "  baseUrl: https://example.com",
  "paths:",
  "  content: content",
  "  templates: templates",
  "  static: static",
  "  output: dist",
  "markdown:",
  "  extensions:",
  "  - definition_lists",
  "  - footnotes",
  "  - gfm",
  "  - heading_attributes",
  "  - strikethrough",
  "  - tables",
  "  - tasklists",
  "serve:",
  "  bind: 127.0.0.1",
  "  port: 1337",
  "  watch:",
  "    poll: false",
  "    poll_interval_ms: 1000",
  "    debounce_ms: 200"]

/-- The layout of all pages. -/
def layout : String := text [
  "<!DOCTYPE html>",
  "<html lang=\"en\">",
  "<head>",
  "  <meta charset=\"utf-8\">",
  "  <meta name=\"viewport\" content=\"width=device-width, initial-scale=1\">",
  "  <title>« site.title »</title>",
  "  <meta name=\"description\" content=\"« site.description »\">",
  "</head>",
  "<body>",
  "  «> header»",
  "  <main>",
  "    « content »",
  "  </main>",
  "  <footer>",
  "    <p>« site.title » &middot; <a href=\"« site.baseUrl »\">« site.baseUrl »</a></p>",
  "  </footer>",
  "</body>",
  "</html>"]

/-- The head of a page: the name of the site and the way to its pages. -/
def header : String := text [
  "<header>",
  "  <a href=\"/\">« site.title »</a>",
  "  <nav>",
  "    <a href=\"/\"«#if site.currentPage.home» aria-current=\"page\"«/if»>Home</a>",
  "    <a href=\"/news\"«#if site.currentPage.articles» aria-current=\"page\"«/if»>News</a>",
  "    <a href=\"/guides\"«#if site.currentPage.guides» aria-current=\"page\"«/if»>Guides</a>",
  "    <a href=\"/games\"«#if site.currentPage.games» aria-current=\"page\"«/if»>Games</a>",
  "    <a href=\"/about\"«#if site.currentPage.about» aria-current=\"page\"«/if»>About</a>",
  "  </nav>",
  "</header>"]

/-- The banner of a page. -/
def banner : String := text [
  "<section class=\"hero\" style=\"background-image: url('« hero.image »')\">",
  "  <h1>« hero.title »</h1>",
  "  <p>« hero.subtitle »</p>",
  "</section>"]

/-- The home page. -/
def home : String := text [
  "«> hero»",
  "«#if featuredArticles.length»",
  "<section>",
  "  <h2>Featured</h2>",
  "  «#each featuredArticles»",
  "  <article>",
  "    <h3><a href=\"/articles/« item.slug »\">« item.title »</a></h3>",
  "    <p>« item.excerpt »</p>",
  "  </article>",
  "  «/each»",
  "</section>",
  "«/if»",
  "<section>",
  "  <h2>Latest</h2>",
  "  «#each articles»",
  "  <article>",
  "    <h3><a href=\"/articles/« item.slug »\">« item.title »</a></h3>",
  "    <p><a href=\"« item.tagLink »\">« item.tag »</a> &middot; « item.date »</p>",
  "    <p>« item.description »</p>",
  "  </article>",
  "  «/each»",
  "</section>"]

/-- The page of an article. -/
def articleBody : String := text [
  "<article>",
  "  <h1>« article.title »</h1>",
  "  <p>",
  "    By <a href=\"/authors/« article.author »\">« author.name »</a> on « article.date »",
  "    &middot; <a href=\"« article.tagLink »\">« article.tag »</a>",
  "  </p>",
  "  <ul>",
  "    «#each article.categoriesData»",
  "    <li><a href=\"/categories/« item.slug »\">« item.name »</a></li>",
  "    «/each»",
  "  </ul>",
  "  « content »",
  "</article>"]

/-- The page of an author. -/
def authorBody : String := text [
  "<h1>« author.name »</h1>",
  "<p>« author.bio || \"This author has not written a bio yet.\" »</p>",
  "<ul>",
  "  «#each articles»",
  "  <li><a href=\"/articles/« item.slug »\">« item.title »</a></li>",
  "  «/each»",
  "</ul>"]

/-- A page that lists articles. -/
def listing : String := text [
  "«> hero»",
  "«#each articles»",
  "<article>",
  "  <h2><a href=\"/articles/« item.slug »\">« item.title »</a></h2>",
  "  <p>« item.excerpt »</p>",
  "</article>",
  "«/each»"]

/-- The page that lists games. -/
def gamesBody : String := text [
  "«> hero»",
  "«#if hasGames»",
  "<ul>",
  "  «#each games»",
  "  <li><a href=\"/categories/« item.slug »\">« item.title »</a> « item.description »</li>",
  "  «/each»",
  "</ul>",
  "«/if»",
  "«#if noGames»",
  "<p>No games yet.</p>",
  "«/if»"]

/-- The page about the site. -/
def aboutBody : String := text [
  "«> hero»",
  "<p>« site.description »</p>"]

/-- The templates, by their paths in the templates directory. -/
def templates : List (Path × String) :=
  [("layouts/default.html", layout), ("partials/header.html", header),
    ("partials/hero.html", banner), ("index.html", home), ("article.html", articleBody),
    ("author.html", authorBody), ("news.html", listing), ("guides.html", listing),
    ("games.html", gamesBody), ("about.html", aboutBody), ("category.html", listing)].map
      fun (path, body) => (.ofString path, body)

/-- The directories in the content directory. -/
def contentDirectories : List String := ["articles", "authors", "games"]

end StaticSite.Starter
