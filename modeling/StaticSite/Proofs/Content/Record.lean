import StaticSite.Content.Article
import StaticSite.Content.FrontMatter
import StaticSite.Proofs.Fields
/-!
# StaticSite.Proofs.Content.Record

**What templates see of an article.** Its record is made by setting eleven computed keys over what
is kept of the front matter (`ArticleMetadata.get?_record`). So the keys that the front matter loses
have to be just those that are set, whatever it has under them; then each key has one value, and it
is clear which (`ArticleMetadata.record_of_frontMatter`). The categories are the listed names, each
where it is first listed (`Article.FirstSeen`).
-/

set_option autoImplicit false

namespace StaticSite

/-! ### Front matter -/

namespace FrontMatter

/-- The fields of a mapping are in order, and those of a tagged value are one. -/
theorem ascending_of_toJson? {document : Yaml} {fields : Fields Json}
    (h : document.toJson? = some (.object fields)) : fields.Ascending := by
  cases document with
  | null | bool _ | integer _ | string _ => cases h
  | number x =>
    rw [Yaml.toJson?, Json.ofNumber] at h
    split at h
    · cases h
    · cases h
  | sequence items =>
    obtain ⟨values, -, harray⟩ := Option.map_eq_some_iff.mp h
    cases harray
  | mapping entries =>
    obtain ⟨members, -, hobject⟩ := Option.map_eq_some_iff.mp h
    cases hobject
    exact Fields.ascending_ofList members
  | tagged tag content =>
    obtain ⟨value, -, hobject⟩ := Option.map_eq_some_iff.mp h
    cases hobject
    exact List.pairwise_singleton _ _

theorem ascending_ofYaml (yaml : List Char) : (ofYaml yaml).Ascending := by
  unfold ofYaml
  split
  · rename_i fields hfields
    obtain ⟨document, -, hjson⟩ := Option.bind_eq_some_iff.mp hfields
    exact ascending_of_toJson? hjson
  · exact List.Pairwise.nil

/-- No two fields of front matter have one name. -/
theorem ascending_parse (text : List Char) : (parse text).1.Ascending := by
  show Fields.Ascending (((split text).1.map ofYaml).getD [])
  cases (split text).1 with
  | none => exact List.Pairwise.nil
  | some yaml => exact ascending_ofYaml yaml

end FrontMatter

namespace Article

variable {name : String} {names : List String}

/-! ### Names, each once

The names are collected one by one, and one that is there already is not added again. So a name
stands where it was first met. -/

theorem mem_distinct : name ∈ distinct names ↔ name ∈ names := by
  induction names with
  | nil => rfl
  | cons first rest ih =>
    by_cases hfirst : name = first
    · simp [distinct, hfirst]
    · simp [distinct, hfirst, ih]

/-- Whether names are those of a list, each once, in the order in which they occur there first. -/
structure FirstSeen (listed names : List String) : Prop where
  nodup : names.Nodup
  mem_iff : ∀ name, name ∈ names ↔ name ∈ listed
  in_order : names.Pairwise fun a b => listed.idxOf a < listed.idxOf b

theorem pairwise_distinct (names : List String) :
    (distinct names).Pairwise fun a b => names.idxOf a < names.idxOf b := by
  induction names with
  | nil => exact List.Pairwise.nil
  | cons first rest ih =>
    have hlater : ∀ name ∈ (distinct rest).filter (· ≠ first),
        (first :: rest).idxOf name = rest.idxOf name + 1 := by
      intro name hname
      have hne : name ≠ first := by simpa using (List.mem_filter.mp hname).2
      have hfirst : (first == name) = false := by simpa using Ne.symm hne
      rw [List.idxOf_cons, hfirst]
      rfl
    refine List.pairwise_cons.mpr ⟨fun name hname => ?_, ?_⟩
    · rw [hlater name hname, List.idxOf_cons_self]
      omega
    · refine (ih.filter _).imp_of_mem fun ha hb hlt => ?_
      rw [hlater _ ha, hlater _ hb]
      omega

theorem firstSeen_distinct (names : List String) : FirstSeen names (distinct names) where
  nodup := (pairwise_distinct names).imp fun hlt heq => by simp [heq] at hlt
  mem_iff _ := mem_distinct
  in_order := pairwise_distinct names

/-- There is one such list. -/
theorem FirstSeen.unique {listed first second : List String} (hfirst : FirstSeen listed first)
    (hsecond : FirstSeen listed second) : first = second :=
  Fields.eq_of_pairwise (fun a b => listed.idxOf a < listed.idxOf b) (fun _ => Nat.lt_irrefl _)
    Nat.lt_trans hfirst.in_order hsecond.in_order
    fun name => (hfirst.mem_iff name).trans (hsecond.mem_iff name).symm

/-- The names of the categories in front matter, as often as they are listed. -/
def listedNames (value : Option Json) : List String :=
  match value with
  | some (.array items) => items.map fun item => String.ofList (Value.ofJson item).text
  | _ => []

theorem categoriesOf_eq (value : Option Json) :
    categoriesOf value = distinct (listedNames value) := by
  cases value with
  | none => rfl
  | some json =>
    cases json with
    | array items => rfl
    | _ => rfl

end Article

namespace ArticleMetadata

open Article

/-! ### The record

The record is made by setting the own keys over what is kept. Under each key there is then the own
value if there is one, and else what was kept. -/

theorem nodup_ownKeys : ownKeys.Nodup := by decide

theorem names_ownFields (metadata : ArticleMetadata) :
    Fields.names metadata.ownFields = ownKeys := rfl

/-- A key of the record has its computed value, or else the one that is kept from the front
matter. -/
theorem get?_record (metadata : ArticleMetadata) :
    ∃ record : Fields Json, metadata.toJson = .object record ∧
      (metadata.extra.Ascending → record.Ascending) ∧
      ∀ key, record.get? key =
        (Fields.get? metadata.ownFields key).or (metadata.extra.get? key) :=
  ⟨_, rfl, fun h => h.foldl_set _,
    Fields.get?_foldl_set (names_ownFields metadata ▸ nodup_ownKeys) _⟩

/-- The values of the eleven keys, from the front matter, the body and the name of the file. -/
def computedFields (now : Instant) (frontMatter : Fields Json) (body : List Char) (slug : String) :
    Fields Json :=
  let written := fun key default => (truthyText? (frontMatter.get? key)).getD default
  let excerpt := written "excerpt" (String.ofList (excerptOf body))
  let categories := categoriesOf (frontMatter.get? "categories")
  [("title", .string (written "title" "Untitled")),
   ("description", .string (written "description" excerpt)),
   ("date", .string (written "date" (String.ofList now.text))),
   ("author", .string (written "author" "Anonymous")),
   ("categories", .array (categories.map Json.string)),
   ("categoriesData", .array (categories.map fun name =>
      .object [("name", .string name), ("slug", .string (slugify name))])),
   ("tag", .string (tagOf frontMatter)),
   ("tagLink", .string (tagLink (tagOf frontMatter))),
   ("excerpt", .string excerpt),
   ("slug", .string slug),
   ("featured", .bool ((frontMatter.get? "featured").any fun value =>
      (Value.ofJson value).isTruthy))]

theorem ownFields_ofFrontMatter (now : Instant) (frontMatter : Fields Json) (body : List Char)
    (slug : String) :
    (ofFrontMatter now frontMatter body slug).ownFields =
      computedFields now frontMatter body slug := by
  have hentry : ∀ name : String,
      Fields.ofList [("name", Json.string name), ("slug", .string (slugify name))] =
        [("name", .string name), ("slug", .string (slugify name))] := by
    intro name
    have hne : ¬ ("name" : String) = "slug" := by decide
    have hge : ¬ ("slug" : String) < "name" := by decide
    simp only [Fields.ofList, List.foldl_cons, List.foldl_nil, Fields.set, if_neg hne, if_neg hge]
  unfold ownFields ofFrontMatter categoriesData computedFields
  simp only [hentry]
  cases frontMatter.get? "featured" with
  | none => rfl
  | some value => rfl

/-- Of the front matter the record keeps what it has under all other keys. -/
theorem get?_extra_ofFrontMatter (now : Instant) (frontMatter : Fields Json) (body : List Char)
    (slug key : String) :
    (ofFrontMatter now frontMatter body slug).extra.get? key =
      if key ∈ ownKeys then none else frontMatter.get? key := by
  have hkept := Fields.get?_filter (fun key => !ownKeys.contains key) frontMatter key
  rw [show (ofFrontMatter now frontMatter body slug).extra =
    frontMatter.filter (fun field => !ownKeys.contains field.1) from rfl, hkept]
  simp

/-- **What an article shows is its front matter under eleven computed keys.** Each key is there
once. The eleven have their computed values, also where the front matter has something else under
them, every other key of the front matter has the value that it has there, and there are no others.
The categories are the listed names as they are first seen, and `categoriesData` has those names,
one by one, with their slugs. -/
theorem record_of_frontMatter {frontMatter : Fields Json} (h : frontMatter.Ascending)
    (now : Instant) (body : List Char) (slug : String) :
    ∃ record : Fields Json,
      (ofFrontMatter now frontMatter body slug).toJson = .object record ∧
      record.Ascending ∧
      (∀ key, key ∈ record.names ↔ key ∈ ownKeys ∨ key ∈ frontMatter.names) ∧
      (∀ key, record.get? key =
        if key ∈ ownKeys then Fields.get? (computedFields now frontMatter body slug) key
        else frontMatter.get? key) ∧
      ∃ categories, FirstSeen (listedNames (frontMatter.get? "categories")) categories ∧
        record.get? "categories" = some (.array (categories.map Json.string)) ∧
        record.get? "categoriesData" = some (.array (categories.map fun name =>
          .object [("name", .string name), ("slug", .string (slugify name))])) := by
  obtain ⟨record, hrecord, hascending, hget⟩ :=
    get?_record (ofFrontMatter now frontMatter body slug)
  have hcomputed : ∀ key, key ∈ ownKeys ↔
      (Fields.get? (computedFields now frontMatter body slug) key).isSome := by
    intro key
    rw [← Fields.mem_names_iff]
    rfl
  -- all that is said of the keys and of single values is read off from this equation
  have hvalue : ∀ key, record.get? key =
      if key ∈ ownKeys then Fields.get? (computedFields now frontMatter body slug) key
      else frontMatter.get? key := by
    intro key
    rw [hget, get?_extra_ofFrontMatter, ownFields_ofFrontMatter]
    split
    · exact Option.or_none
    · rename_i hother
      rw [hcomputed, Option.not_isSome_iff_eq_none] at hother
      rw [hother, Option.none_or]
  refine ⟨record, hrecord, hascending (h.filter _), fun key => ?_, hvalue,
    categoriesOf (frontMatter.get? "categories"), ?_, ?_, ?_⟩
  · rw [Fields.mem_names_iff, hvalue]
    split
    · rename_i hkey
      exact iff_of_true ((hcomputed key).mp hkey) (.inl hkey)
    · rename_i hkey
      rw [← Fields.mem_names_iff, or_iff_right hkey]
  · rw [categoriesOf_eq]
    exact firstSeen_distinct _
  · rw [hvalue, if_pos (by decide)]
    rfl
  · rw [hvalue, if_pos (by decide)]
    rfl

/-- A name that is listed twice is shown once, and front matter has no say in `categoriesData`. -/
theorem record_of_frontMatter_custom :
    let frontMatter : Fields Json :=
      .ofList [("custom", .bool true), ("categoriesData", .integer 5),
        ("categories", .array [.string "Elden Ring", .string "RPG", .string "Elden Ring"])]
    frontMatter.Ascending ∧
      ∃ record : Fields Json,
        (ofFrontMatter ⟨0, 0⟩ frontMatter [] "ring").toJson = .object record ∧
        record.get? "custom" = some (.bool true) ∧
        record.get? "categoriesData" = some (.array
          [.object [("name", .string "Elden Ring"), ("slug", .string "elden-ring")],
            .object [("name", .string "RPG"), ("slug", .string "rpg")]]) := by
  intro frontMatter
  have hascending : frontMatter.Ascending := Fields.ascending_ofList _
  obtain ⟨record, hrecord, -, -, hvalue, categories, hseen, -, hdata⟩ :=
    record_of_frontMatter hascending ⟨0, 0⟩ [] "ring"
  have hcategories : categories = ["Elden Ring", "RPG"] :=
    hseen.unique (firstSeen_distinct (listedNames (frontMatter.get? "categories")))
  refine ⟨hascending, record, hrecord, ?_, ?_⟩
  · rw [hvalue, if_neg (by decide)]
    rfl
  · rw [hdata, hcategories]
    rfl

end ArticleMetadata

end StaticSite
