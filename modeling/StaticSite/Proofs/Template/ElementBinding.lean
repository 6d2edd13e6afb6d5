import StaticSite.Proofs.Template.Lookup
import StaticSite.Proofs.Template.Visibility
/-!
# StaticSite.Proofs.Template.ElementBinding

**The element of a loop is the key `item`.** Within a loop, a path that starts with `item.` leads
into the element. Outside of loops the same path leads through the key `item` of the root. If `item`
is used in a body in this way only, and not for anything that ignores the element, then it makes no
difference whether the body is evaluated for an element, or for a root that has the element under
`item` (`evalNodes_bind_item`).

This is seen look-up by look-up. One that has to do with `item` walks from the element in both cases
(`resolve_set_item`), and any other does not see the key (`resolve_set_of_ne`). A condition looks
closer: it asks nothing of an element without structure, where the walk from a root goes on. The
truth is the same except for the strings that have characters (`isTruthy_resolve_eq`).
-/

set_option autoImplicit false

namespace StaticSite

/-! ### Paths -/

theorem toList_of_elementPath? {path rest : String} (h : elementPath? path = some rest) :
    path.toList = "item".toList ++ '.' :: rest.toList := by
  unfold elementPath? at h
  obtain ⟨after, hafter, rfl⟩ := Option.map_eq_some_iff.mp h
  have hrest : (String.ofList after).toList = after := String.toList_ofList
  rw [hrest, Text.dropStart?_eq_some_iff.mp hafter]
  rfl

/-- A path that leads into the element has the segment `item` in front. -/
theorem segments_of_elementPath? {path rest : String} (h : elementPath? path = some rest) :
    segments path = "item" :: segments rest := by
  have hcut : segments path = segments "item" ++ segments rest :=
    segments_of_toList (toList_of_elementPath? h)
  rw [hcut]
  rfl

theorem firstSegment_of_elementPath? {path rest : String} (h : elementPath? path = some rest) :
    firstSegment path = some "item" := by
  unfold firstSegment
  rw [segments_of_elementPath? h]
  rfl

theorem ne_empty_of_elementPath? {path rest : String} (h : elementPath? path = some rest) :
    path ≠ "" := by
  rintro rfl
  cases h

/-! ### Values

A condition follows a path from an element only if that is a mapping or a sequence. An
interpolation, and every walk from the root, go on from any value that is truthy, and so from a
string that has characters: it has a length and positions. -/

namespace Value

variable {fields : Fields Value} {element : Value}

/-- From the root, a path that starts with `item.` goes on from the element. -/
theorem resolve_set_item {path rest : String} (h : elementPath? path = some rest) :
    (mapping (fields.set "item" element)).resolve path = element.walk (segments rest) := by
  rw [resolve_mapping (ne_empty_of_elementPath? h) (segments_of_elementPath? h), Fields.get?_set,
    if_pos rfl]
  rfl

/-- Nothing true is found below a value that has nothing under the first segment. -/
theorem isTruthy_walk_cons {first : String}
    (h : element.isTruthy = true → element.property first = null) (rest : List String) :
    (element.walk (first :: rest)).isTruthy = false := by
  unfold walk
  split
  · rename_i htrue
    rw [h htrue, walk_null]
    rfl
  · rename_i hfalse
    exact Bool.eq_false_iff.mpr hfalse

/-- Below a value without structure there is nothing true, unless it is a string that has
characters. -/
theorem isTruthy_resolve_eq (hstring : ∀ s, element = string s → s = "") {path : String}
    (hpath : path ≠ "") :
    (element.resolve path).isTruthy = (element.walk (segments path)).isTruthy := by
  obtain ⟨first, rest, hsegments, -⟩ := exists_segments_eq_cons path
  have hscalar : element.isIndexable = false → (element.resolve path).isTruthy = false := by
    intro hindexable
    rw [resolve_of_not_indexable hindexable]
    rfl
  cases element with
  | sequence items | mapping fields => rw [resolve_of_indexable rfl hpath]
  | null | bool b | number x =>
    rw [hscalar rfl, hsegments, isTruthy_walk_cons fun _ => rfl]
  | string s =>
    obtain rfl := hstring s rfl
    rw [hscalar rfl, hsegments, isTruthy_walk_cons fun htrue => by cases htrue]

end Value

/-! ### Look-ups -/

/-- Whether a look-up is the plain interpolation or the condition of a path that goes on after
`item.`. -/
def Lookup.IsBelowItem (l : Lookup) : Prop :=
  (l.form = .interpolation ∨ l.form = .condition) ∧ ∃ rest ∈ elementPath? l.path, rest ≠ ""

instance (l : Lookup) : Decidable l.IsBelowItem := instDecidableAnd

theorem Lookup.IsBelowItem.isItem {l : Lookup} (h : l.IsBelowItem) : l.IsItem := by
  obtain ⟨hform, rest, hrest, -⟩ := h
  exact ⟨hform, Option.isSome_iff_exists.mpr ⟨rest, hrest⟩⟩

section Agreement

variable {l : Lookup} {fields : Fields Value} {element : Value}

/-- A look-up below `item.` makes the same of the element and of the key. -/
theorem Lookup.IsBelowItem.same (h : l.IsBelowItem) (hstring : ∀ s, element = .string s → s = "") :
    l.form.Same (l.found ⟨.mapping fields, some element⟩)
      (l.found ⟨.mapping (fields.set "item" element), none⟩) := by
  obtain ⟨form, path, inLoop⟩ := l
  obtain ⟨hform, rest, hpath, hrest⟩ := h
  have hwalk : (Value.mapping (fields.set "item" element)).resolve path =
      element.walk (segments rest) := Value.resolve_set_item hpath
  rcases hform with rfl | rfl
  · simp only [LookupForm.Same, Lookup.found, Scope.interpolated_of_some hpath,
      Scope.interpolated_root, hwalk]
  · simp only [LookupForm.Same, Lookup.found, Scope.condition_of_some hpath,
      Scope.condition_root, hwalk]
    exact Value.isTruthy_resolve_eq hstring hrest

/-- A look-up that has nothing to do with `item` finds the same, whatever the elements are. -/
theorem Lookup.found_set_of_ne (h : firstSegment l.path ≠ some "item")
    (first second : Option Value) :
    l.found ⟨.mapping fields, first⟩ = l.found ⟨.mapping (fields.set "item" element), second⟩ := by
  have hitem : ¬ l.IsItem := by
    rintro ⟨-, hpath⟩
    obtain ⟨rest, hrest⟩ := Option.isSome_iff_exists.mp hpath
    exact h (firstSegment_of_elementPath? hrest)
  rw [Lookup.found_eq_resolve fun h => hitem h.1, Lookup.found_eq_resolve fun h => hitem h.1]
  exact (Value.resolve_set_of_ne h _).symm

theorem Lookup.agrees_bind_item (h : firstSegment l.path = some "item" → l.IsBelowItem)
    (hstring : ∀ s, element = .string s → s = "") :
    l.Agrees ⟨.mapping fields, some element⟩ ⟨.mapping (fields.set "item" element), none⟩ := by
  unfold Lookup.Agrees
  by_cases hitem : firstSegment l.path = some "item"
  · split
    · -- the inner loop has an item of its own, for both
      exact fun item => .of_eq _ ((h hitem).isItem.found_eq _ _ item)
    · exact (h hitem).same hstring
  · split
    · exact fun item => .of_eq _ (Lookup.found_set_of_ne hitem _ _)
    · exact .of_eq _ (Lookup.found_set_of_ne hitem _ _)

end Agreement

/-- **The element of a loop is the key `item`.** Where paths through `item` occur in a body as plain
interpolations and conditions below `item.` only, inner loops included, the body shows the same for
an element as it shows, outside of loops, of a root with the element under `item`. The element may
be anything but a string that has characters: such a string has a length for an interpolation and
none for a condition. -/
theorem evalNodes_bind_item (root : Fields Value) (element : Value) (body : List Node)
    (hstring : ∀ s, element = .string s → s = "")
    (hbody : ∀ l ∈ lookupsIn body, firstSegment l.path = some "item" → l.IsBelowItem) :
    evalNodes ⟨.mapping root, some element⟩ body =
      evalNodes ⟨.mapping (root.set "item" element), none⟩ body :=
  evalNodes_congr fun l hl => Lookup.agrees_bind_item (hbody l hl) hstring

/-- A string with characters has a length to show, but not to test. -/
example :
    evalNodes ⟨.mapping [], some (.string "abc")⟩
        (parseTemplate (templateOf "«item.length»«#if item.length»!«/if»")) = ['3'] ∧
      evalNodes ⟨.mapping (Fields.set [] "item" (.string "abc")), none⟩
        (parseTemplate (templateOf "«item.length»«#if item.length»!«/if»")) = ['3', '!'] := by
  decide +kernel

/-- A body with an inner loop, for an element that hides what the root has under `item`. -/
theorem evalNodes_bind_item_card :
    evalNodes ⟨.mapping [("item", .string "old"), ("tags", .sequence [.string "x"])],
        some (.mapping [("new", .bool true), ("title", .string "T")])⟩
        (parseTemplate (templateOf "«#if item.new»*«/if»«item.title»«#each tags»«item.0»«/each»")) =
      evalNodes ⟨.mapping (Fields.set
          [("item", .string "old"), ("tags", .sequence [.string "x"])] "item"
          (.mapping [("new", .bool true), ("title", .string "T")])), none⟩
        (parseTemplate
          (templateOf "«#if item.new»*«/if»«item.title»«#each tags»«item.0»«/each»")) :=
  evalNodes_bind_item _ _ _ (fun s h => by cases h) (by decide +kernel)

end StaticSite
