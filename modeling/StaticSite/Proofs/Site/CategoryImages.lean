import Mathlib.Data.List.Induction
import StaticSite.Proofs.Fields
import StaticSite.Site.Page
/-!
# StaticSite.Proofs.Site.CategoryImages

Which image the page of a category shows. A game goes by two slugs, its own and that of its title,
and the images of all games are noted under both, one game after the other. So **the last game that
goes by the slug of a category decides**, whether it has an image or not
(`Category.image_eq_of_last`), and what is said of the image holds if that game has one
(`Category.hero_shows_last_game`). An earlier game with an image is not asked
(`Category.image_of_earlier_game_lost`).
-/

set_option autoImplicit false

namespace StaticSite

/-- Whether a game goes by a slug: it is that of the game or of its title. -/
def Game.GoesBy (game : Game) (slug : String) : Prop := game.slug = slug ∨ slugify game.title = slug

instance (game : Game) (slug : String) : Decidable (game.GoesBy slug) :=
  inferInstanceAs (Decidable (_ ∨ _))

namespace Category

variable {games : List Game} {slug : String}

/-! ### The last game

The images are a list of pairs that is read from its end. Each game puts its pairs at that end, so
the induction is on the games from the last one backwards. -/

/-- One more game takes the place of all earlier ones that go by its slugs. -/
theorem lookup_gameImages_concat (games : List Game) (game : Game) (slug : String) :
    (gameImages (games ++ [game])).reverse.lookup slug =
      if game.GoesBy slug then some game.imageUrl? else (gameImages games).reverse.lookup slug := by
  have hreverse : (gameImages (games ++ [game])).reverse =
      (slugify game.title, game.imageUrl?) :: (game.slug, game.imageUrl?) ::
        (gameImages games).reverse := by
    unfold gameImages
    rw [List.flatMap_append, List.reverse_append]
    rfl
  rw [hreverse, List.lookup_cons, List.lookup_cons]
  unfold Game.GoesBy
  by_cases htitle : slugify game.title = slug
  · simp [htitle]
  · have hother : (slug == slugify game.title) = false := beq_false_of_ne (Ne.symm htitle)
    rw [hother]
    by_cases hslug : game.slug = slug
    · simp [hslug]
    · simp [htitle, hslug, beq_false_of_ne (Ne.symm hslug)]

/-- What is noted under a slug in the end is what the last game that goes by it has. -/
theorem lookup_gameImages (games : List Game) (slug : String) :
    (gameImages games).reverse.lookup slug =
      ((games.filter (·.GoesBy slug)).getLast?).map Game.imageUrl? := by
  induction games using List.reverseRecOn with
  | nil => rfl
  | append_singleton games game ih =>
    rw [lookup_gameImages_concat, ih, List.filter_append]
    by_cases hgame : game.GoesBy slug
    · simp [hgame]
    · simp [hgame]

/-- **The last game that goes by a slug decides on its image.** -/
theorem image_eq_of_last (games : List Game) (slug : String) :
    image games slug =
      ((games.filter (·.GoesBy slug)).getLast?.bind Game.imageUrl?).getD defaultImage := by
  unfold image
  rw [lookup_gameImages]
  cases (games.filter (·.GoesBy slug)).getLast? with
  | none => rfl
  | some game => rfl

/-! ### Images that are shown -/

/-- When the image of a slug is that of a game that goes by it. -/
theorem exists_shown_iff (games : List Game) (slug : String) :
    (∃ game ∈ games.filter (·.GoesBy slug), game.imageUrl? = some (image games slug)) ↔
      (∃ game, (games.filter (·.GoesBy slug)).getLast? = some game ∧ game.imageUrl?.isSome) ∨
        ∃ game ∈ games.filter (·.GoesBy slug), game.imageUrl? = some defaultImage := by
  rw [image_eq_of_last]
  cases hlast : (games.filter (·.GoesBy slug)).getLast? with
  | none =>
    rw [List.getLast?_eq_none_iff] at hlast
    simp [hlast]
  | some last =>
    have hmem : last ∈ games.filter (·.GoesBy slug) := List.mem_of_getLast? hlast
    rw [Option.bind_some]
    cases himage : last.imageUrl? with
    | none =>
      -- the default image is shown, which may be that of an earlier game
      simp [himage]
    | some url =>
      refine iff_of_true ⟨last, hmem, himage⟩ (.inl ⟨last, rfl, ?_⟩)
      rw [himage]
      rfl

/-- **The page of a category shows the image of the last game that goes by its slug**, and the
default image if that game has none or there is no such game. So the image is that of a game that
goes by the slug if and only if the last of them has one, or one of them has the default image for
its own. -/
theorem hero_shows_last_game (site : Site) (category : Category) :
    let named := site.games.filter (·.GoesBy category.slug)
    let url := image site.games category.slug
    (site.categoryPage category).data.get? "hero" =
        some (Site.hero url category.name ("Articles related to " ++ category.name)) ∧
      url = (named.getLast?.bind Game.imageUrl?).getD defaultImage ∧
      ((∀ game ∈ named, game.imageUrl? = none) → url = defaultImage) ∧
      ((∃ game ∈ named, game.imageUrl? = some url) ↔
        (∃ game, named.getLast? = some game ∧ game.imageUrl?.isSome) ∨
          ∃ game ∈ named, game.imageUrl? = some defaultImage) := by
  intro named url
  have hurl : url = (named.getLast?.bind Game.imageUrl?).getD defaultImage :=
    image_eq_of_last site.games category.slug
  refine ⟨?_, hurl, fun hnone => ?_, exists_shown_iff site.games category.slug⟩
  · simp [Site.categoryPage, Fields.ofList, Fields.get?_set, url]
  · rw [hurl]
    cases hlast : named.getLast? with
    | none => rfl
    | some last => rw [Option.bind_some, hnone last (List.mem_of_getLast? hlast), Option.getD_none]

/-- Two records of one game, in the order in which they are loaded. Only the first has an image. -/
def twoRecords : List Game :=
  [.ofJson (.object [("image", .string "/img/er.png"), ("slug", .string "er")]) "a",
    .ofJson (.object [("slug", .string "er")]) "b"]

/-- A record without an image takes away the image of an earlier one, and the default image is
shown. -/
theorem image_of_earlier_game_lost :
    (∃ game ∈ twoRecords, game.GoesBy "er" ∧ game.imageUrl? = some "/img/er.png") ∧
      image twoRecords "er" = defaultImage ∧
      ¬ ∃ game ∈ twoRecords, game.GoesBy "er" ∧ game.imageUrl? = some (image twoRecords "er") := by
  decide +kernel

end Category

end StaticSite
