import StaticSite.Proofs.FileTree.Confinement
/-!
# StaticSite.Proofs.FileTree.Growth

**Where a file is, a file stays**, as long as nothing is removed: directories are made where nothing
stands, and a file is written in place of nothing or of another file. So what a task writes is still
a file when later tasks are done, though it may have another content (`FileTree.growing`).
-/

set_option autoImplicit false

namespace StaticSite

namespace FileTree

variable {tree before after : FileTree} {place : Place} {p : Path}

/-- Whether a file stands at a place. -/
def HasFile (tree : FileTree) (place : Place) : Prop :=
  ∃ content, tree.kind? place = some (some content)

/-- The discipline of tasks that take no file away. -/
def growing : Discipline FileTree where
  holds := WellFormed
  change before after := ∀ place, before.HasFile place → after.HasFile place
  refl _ _ h := h
  trans h hnext place hplace := hnext place (h place hplace)

/-- What is written is a file from then on. -/
theorem write_grows {content : ByteArray} (hne : p.location ≠ []) (h : before.WellFormed)
    (hrun : before.write p content = .ok after) :
    growing.Allows before after ∧ after.HasFile p.location := by
  have hkind := write_ok h.root hrun
  have hformed : (within [] fun _ => True).Allows before after :=
    write_allows List.nil_prefix hne h hrun
  refine ⟨⟨hformed.1, fun place hfile => ?_⟩, content, by rw [hkind, if_pos rfl]⟩
  unfold HasFile
  rw [hkind]
  split
  · exact ⟨content, rfl⟩
  · exact hfile

end FileTree

namespace FileTask

open FileTree (growing within)

variable {p : Path}

theorem grows_makeDirectories (hp : p.isAbsolute = true) : growing.Keeps (makeDirectories p) := by
  refine Discipline.keeps_of_allows fun tree htree => ⟨?_, fun place hfile => ?_⟩
  · exact ((keeps_makeDirectories (permitted_anywhere [] hp)).allows htree).1
  · obtain ⟨content, hcontent⟩ := hfile
    exact ⟨content, (file_makeDirectories_iff hp htree place content).mpr hcontent⟩

theorem grows_write {content : ByteArray} (hne : p.location ≠ []) :
    growing.Keeps (write p content) :=
  keeps_step fun _ _ htree hrun => (FileTree.write_grows hne htree hrun).1

theorem grows_writeInside {content : ByteArray} (hp : p.isAbsolute = true)
    (hne : p.location ≠ []) : growing.Keeps (writeInside p content) := by
  unfold writeInside
  split
  · rename_i parent hparent
    exact (grows_makeDirectories (Path.steps_of_parent? hp hparent).1).bind
      fun _ => grows_write hne
  · exact (Discipline.keeps_pure ()).bind fun _ => grows_write hne

theorem grows_copy {source goal : Path} (hgoal : goal.isAbsolute = true) :
    growing.Keeps (copy source goal) := by
  refine keeps_copyWith_of (P := fun goal => goal.isAbsolute = true) (fun _ htree => htree)
    (fun goal name hgoal _ => Path.isAbsolute_join hgoal) (fun goal => grows_makeDirectories)
    (fun goal name content _ hname => grows_write ?_) hgoal
  rw [Path.location_child hname]
  simp

/-- A file that has been written is there. -/
theorem hasFile_writeInside {content : ByteArray} {tree after : FileTree}
    (hp : p.isAbsolute = true) (hne : p.location ≠ []) (htree : tree.WellFormed)
    (h : writeInside p content tree = .ok () after) : after.HasFile p.location := by
  have hwrite : ∀ {before : FileTree}, before.WellFormed →
      write p content before = .ok () after → after.HasFile p.location := by
    intro before hbefore hrun
    unfold write step at hrun
    split at hrun
    · rename_i written hwritten
      cases hrun
      exact (FileTree.write_grows hne hbefore hwritten).2
    · cases hrun
  unfold writeInside at h
  cases hparent : p.parent? with
  | some parent =>
    simp only [hparent] at h
    obtain ⟨_, made, hmade, h⟩ := bind_eq_ok_iff.mp h
    have hformed := grows_makeDirectories (Path.steps_of_parent? hp hparent).1 tree htree
    rw [hmade] at hformed
    exact hwrite hformed.1.1 h
  | none =>
    simp only [hparent] at h
    exact hwrite htree h

end FileTask

end StaticSite
