import StaticSite.Template.Lookup
import StaticSite.Proofs.Fields
import StaticSite.Proofs.Text.Split
/-!
# StaticSite.Proofs.Template.Lookup

**Looking up a path is one walk.** The segments of two paths with a point between them are the
segments of the one and then of the other (`segments_append`), and to walk along them is to walk
along the first and to go on from there (`walk_append`). So a path may be cut at any point
(`resolve_append`), except in front of a first segment that is empty, for the empty path finds
nothing and is no place to go on from. A walk does not leave a falsy value (`walk_of_falsy`), which
is why it is the answer for every longer path.

In a mapping a path starts at the field of its first segment (`resolve_mapping`), so no path sees
more than one of the fields (`resolve_set_of_ne`).
-/

set_option autoImplicit false

namespace StaticSite

/-! ### Segments -/

/-- The first segment of a path. -/
def firstSegment (path : String) : Option String := (segments path).head?

theorem exists_segments_eq_cons (path : String) :
    ∃ first rest, segments path = first :: rest ∧ firstSegment path = some first := by
  unfold firstSegment
  rcases h : segments path with _ | ⟨first, rest⟩
  · exact absurd (List.map_eq_nil_iff.mp h) (Text.splitAtEach_ne_nil _)
  · exact ⟨first, rest, rfl, rfl⟩

theorem segments_empty : segments "" = [""] := rfl

/-- A path of two segments or more is not empty. -/
theorem ne_empty_of_segments {path first second : String} {rest : List String}
    (h : segments path = first :: second :: rest) : path ≠ "" := by
  rintro rfl
  rw [segments_empty] at h
  exact List.cons_ne_nil _ _ (List.cons.inj h).2.symm

theorem segments_of_toList {path front rest : String}
    (h : path.toList = front.toList ++ '.' :: rest.toList) :
    segments path = segments front ++ segments rest := by
  unfold segments
  rw [h, Text.splitAtEach_append_cons (by decide), List.map_append]

theorem segments_append (front rest : String) :
    segments (front ++ "." ++ rest) = segments front ++ segments rest := by
  refine segments_of_toList ?_
  rw [String.toList_append, String.toList_append, List.append_assoc]
  rfl

namespace Value

variable {value context : Value} {fields : Fields Value} {front : String}

/-! ### Walks

The answer at a falsy value is the value itself, at every step. That makes a walk a fold over the
segments, which may be stopped and taken up again anywhere. -/

/-- There is nothing to follow from a falsy value. -/
theorem walk_of_falsy (h : value.isTruthy = false) (path : List String) :
    value.walk path = value := by
  cases path with
  | nil => rfl
  | cons segment rest =>
    unfold walk
    rw [h]
    rfl

theorem walk_of_truthy (h : value.isTruthy = true) (segment : String) (rest : List String) :
    value.walk (segment :: rest) = (value.property segment).walk rest := by
  rw [walk, if_pos h]

theorem walk_null (path : List String) : null.walk path = null := walk_of_falsy rfl path

theorem walk_append (value : Value) (front rest : List String) :
    value.walk (front ++ rest) = (value.walk front).walk rest := by
  induction front generalizing value with
  | nil => rfl
  | cons segment front ih =>
    rw [List.cons_append]
    cases h : value.isTruthy with
    | true => rw [walk_of_truthy h, walk_of_truthy h, ih]
    | false => rw [walk_of_falsy h, walk_of_falsy h, walk_of_falsy h]

/-! ### Paths in a context -/

theorem resolve_of_not_indexable (h : context.isIndexable = false) (path : String) :
    context.resolve path = null := by
  unfold resolve
  rw [h, if_pos (by simp)]

theorem resolve_of_indexable (h : context.isIndexable = true) {path : String} (hpath : path ≠ "") :
    context.resolve path = context.walk (segments path) := by
  unfold resolve
  rw [h, if_neg (by simpa using hpath)]

/-- A path goes on from what the front of it leads to. -/
theorem resolve_append (hfront : front ≠ "") (context : Value) (rest : String) :
    context.resolve (front ++ "." ++ rest) = (context.resolve front).walk (segments rest) := by
  cases h : context.isIndexable with
  | false => rw [resolve_of_not_indexable h, resolve_of_not_indexable h, walk_null]
  | true =>
    have hpath : front ++ "." ++ rest ≠ "" := by simp
    rw [resolve_of_indexable h hpath, resolve_of_indexable h hfront, segments_append, walk_append]

/-- A path in a mapping starts at the field of its first segment. -/
theorem resolve_mapping {path : String} (hpath : path ≠ "") {first : String} {rest : List String}
    (h : segments path = first :: rest) :
    (mapping fields).resolve path = ((fields.get? first).getD null).walk rest := by
  rw [resolve_of_indexable rfl hpath, h]
  rfl

/-- Paths that start with another segment do not see a field. -/
theorem resolve_set_of_ne {path name : String} (h : firstSegment path ≠ some name) (new : Value) :
    (mapping (fields.set name new)).resolve path = (mapping fields).resolve path := by
  by_cases hpath : path = ""
  · subst hpath
    rfl
  · obtain ⟨first, rest, hsegments, hfirst⟩ := exists_segments_eq_cons path
    have hne : name ≠ first := by
      rintro rfl
      exact h hfirst
    rw [resolve_mapping hpath hsegments, resolve_mapping hpath hsegments, Fields.get?_set,
      if_neg hne]

/-- **Paths compose and stop at what is falsy.** In every context, a path that starts with another
one, which is not empty, goes on from the value of that one; so if that value is falsy, it is the
value of the whole path. From any value, to walk along two paths in turn is to walk along both in
one. -/
theorem resolve_composes :
    (∀ (context : Value) (front rest : String), front ≠ "" →
      context.resolve (front ++ "." ++ rest) = (context.resolve front).walk (segments rest)) ∧
    (∀ (context : Value) (front rest : String), front ≠ "" →
      (context.resolve front).isTruthy = false →
        context.resolve (front ++ "." ++ rest) = context.resolve front) ∧
    (∀ (start : Value) (front rest : List String),
      start.walk (front ++ rest) = (start.walk front).walk rest) := by
  refine ⟨fun context front rest hfront => resolve_append hfront context rest, ?_, walk_append⟩
  intro context front rest hfront hfalsy
  rw [resolve_append hfront, walk_of_falsy hfalsy]

/-- A context with a name to go on from, and an age of zero. -/
def personContext : Value :=
  .mapping [("user", .mapping [("age", .number (.ofNat 0)), ("name", .string "Ada")])]

/-- The length of a character of the name, and a path that goes on from the age of zero. -/
theorem resolve_composes_person :
    "user.name" ≠ "" ∧
      personContext.resolve ("user.name" ++ "." ++ "0.length") =
        (personContext.resolve "user.name").walk (segments "0.length") ∧
      "user.age" ≠ "" ∧ (personContext.resolve "user.age").isTruthy = false ∧
      personContext.resolve ("user.age" ++ "." ++ ".years") = personContext.resolve "user.age" := by
  have hname : "user.name" ≠ "" := by decide
  have hage : "user.age" ≠ "" := by decide
  have hfalsy : (personContext.resolve "user.age").isTruthy = false := by decide +kernel
  exact ⟨hname, resolve_composes.1 _ _ _ hname, hage, hfalsy,
    resolve_composes.2.1 _ _ _ hage hfalsy⟩

end Value

end StaticSite
