import StaticSite.Slug
/-!
# StaticSite.Proofs.Slug

What a slug is written in: **nothing but lower-case letters, digits and dashes** (`of_mem_scan`).
-/

set_option autoImplicit false

namespace StaticSite

namespace Slug

theorem of_mem_scan {started pending : Bool} {s : List Char} {c : Char}
    (h : c ∈ scan started pending s) : isKept c = true ∨ c = '-' := by
  induction s generalizing started pending with
  | nil => cases h
  | cons first rest ih =>
    unfold scan at h
    split at h
    · rename_i hkept
      split at h
      · rcases List.mem_cons.mp h with rfl | h
        · exact .inr rfl
        · rcases List.mem_cons.mp h with rfl | h
          · exact .inl hkept
          · exact ih h
      · rcases List.mem_cons.mp h with rfl | h
        · exact .inl hkept
        · exact ih h
    · exact ih h

end Slug

theorem of_mem_slugify {name : String} {c : Char} (h : c ∈ (slugify name).toList) :
    Slug.isKept c = true ∨ c = '-' := by
  unfold slugify at h
  rw [String.toList_ofList] at h
  exact Slug.of_mem_scan h

theorem not_mem_slugify {c : Char} (hkept : Slug.isKept c = false) (hdash : c ≠ '-')
    (name : String) : c ∉ (slugify name).toList := by
  intro h
  rcases of_mem_slugify h with hc | hc
  · rw [hkept] at hc
    cases hc
  · exact hdash hc

theorem slash_not_mem_slugify (name : String) : '/' ∉ (slugify name).toList :=
  not_mem_slugify (by decide) (by decide) name

theorem point_not_mem_slugify (name : String) : '.' ∉ (slugify name).toList :=
  not_mem_slugify (by decide) (by decide) name

end StaticSite
