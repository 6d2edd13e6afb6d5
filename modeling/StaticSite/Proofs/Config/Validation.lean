import StaticSite.Config.Validation
import StaticSite.Proofs.Path.Folding
/-!
# StaticSite.Proofs.Config.Validation

Which paths are refused. The test compares the text of folded paths; **what it decides is where
they lead** (`SitePaths.validate_eq_ok_iff`): paths are accepted if the output is written down and
neither the directory of the site nor one of the three source directories is at the place of the
output or below it.
-/

set_option autoImplicit false

namespace StaticSite.SitePaths

variable {paths : SitePaths} {base : Path}

/-- The directories that are checked against the output, as they are written. -/
def checked (paths : SitePaths) (base : Path) : List Path :=
  [base, base.resolve paths.content, base.resolve paths.templates, base.resolve paths.assets]

theorem isAbsolute_of_mem_checked (hbase : base.isAbsolute = true) {p : Path}
    (hp : p ∈ paths.checked base) : p.isAbsolute = true := by
  unfold checked at hp
  simp only [List.mem_cons, List.not_mem_nil, or_false] at hp
  rcases hp with rfl | rfl | rfl | rfl
  · exact hbase
  all_goals exact Path.isAbsolute_resolve hbase _

theorem mem_sources_iff {p : Path} :
    p ∈ (paths.sources base).map Prod.snd ↔ ∃ q ∈ paths.checked base, q.normalize = p := by
  rw [← List.mem_map]
  rfl

theorem conflict?_eq_none_iff (hbase : base.isAbsolute = true) :
    paths.conflict? base = none ↔
      paths.output.chars ≠ [] ∧
        ∀ p ∈ paths.checked base, ¬ (base.resolve paths.output).location <+: p.location := by
  have houtput : (base.resolve paths.output).isAbsolute = true := Path.isAbsolute_resolve hbase _
  unfold conflict?
  split
  · rename_i hempty
    simp [List.isEmpty_iff.mp hempty]
  · rename_i hempty
    rw [List.isEmpty_iff] at hempty
    dsimp only
    rw [Option.map_eq_none_iff, List.find?_eq_none]
    constructor
    · intro h
      refine ⟨hempty, fun p hp hunder => ?_⟩
      -- the directory is tested under its folded path
      obtain ⟨source, hsource, heq⟩ := List.mem_map.mp (mem_sources_iff.mpr ⟨p, hp, rfl⟩)
      apply h source hsource
      rw [heq]
      exact (Path.startsWith_normalize (isAbsolute_of_mem_checked hbase hp) houtput).mpr hunder
    · rintro ⟨-, h⟩ source hsource hstarts
      obtain ⟨p, hp, heq⟩ := mem_sources_iff.mp (List.mem_map_of_mem hsource)
      rw [← heq] at hstarts
      exact h p hp
        ((Path.startsWith_normalize (isAbsolute_of_mem_checked hbase hp) houtput).mp hstarts)

theorem validate_eq_ok_iff (hbase : base.isAbsolute = true) :
    paths.validate base = .ok () ↔
      paths.output.chars ≠ [] ∧
        ∀ p ∈ paths.checked base, ¬ (base.resolve paths.output).location <+: p.location := by
  rw [← conflict?_eq_none_iff hbase]
  unfold validate
  cases paths.conflict? base with
  | none => simp
  | some e => simp

end StaticSite.SitePaths
