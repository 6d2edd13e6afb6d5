import StaticSite.Proofs.FileTree.Confinement
/-!
# StaticSite.Proofs.FileTree.Writing

**A file that is written has its content, and every other file has the content that it had**
(`FileTask.writeInside_ok`), although directories are made on the way. A task that only makes
directories and writes to other places spares a place: the same file stands there afterwards, or
still none (`FileTree.sparing`).
-/

set_option autoImplicit false

namespace StaticSite

namespace FileTree

variable {before after : FileTree} {p : Path}

/-- The discipline of tasks that bring no file to a place, change none there and take none away. -/
def sparing (place : Place) : Discipline FileTree where
  holds := WellFormed
  change before after := ∀ content,
    after.kind? place = some (some content) ↔ before.kind? place = some (some content)
  refl _ _ := Iff.rfl
  trans h hnext content := (hnext content).trans (h content)

/-- Nothing is written in place of the root. -/
theorem location_ne_nil_of_write {content : ByteArray} (hroot : before.kind? [] = some none)
    (h : before.write p content = .ok after) : p.location ≠ [] := by
  unfold write at h
  split at h
  · cases h
  · cases h
  · rename_i parent name htarget
    rw [(target_entry hroot htarget).1]
    simp

theorem wellFormed_write {content : ByteArray} (hbefore : before.WellFormed)
    (h : before.write p content = .ok after) : after.WellFormed :=
  wellFormed_of_kind? hbefore
    ⟨location_ne_nil_of_write hbefore.root h, fun _ => Path.isName_of_mem_location⟩
    (write_ok hbefore.root h)

end FileTree

namespace FileTask

open FileTree (sparing)

variable {p : Path} {place : Place}

theorem spares_makeDirectories (hp : p.isAbsolute = true) :
    (sparing place).Keeps (makeDirectories p) :=
  Discipline.keeps_of_allows fun _ htree =>
    ⟨((keeps_makeDirectories (permitted_anywhere [] hp)).allows htree).1,
      file_makeDirectories_iff hp htree place⟩

theorem spares_write {content : ByteArray} (hne : p.location ≠ place) :
    (sparing place).Keeps (write p content) := by
  refine keeps_step fun before after hbefore hwrite => ⟨?_, fun other => ?_⟩
  · exact FileTree.wellFormed_write hbefore hwrite
  · rw [FileTree.write_ok hbefore.root hwrite, if_neg (Ne.symm hne)]

theorem spares_writeInside {content : ByteArray} (hp : p.isAbsolute = true)
    (hne : p.location ≠ place) : (sparing place).Keeps (writeInside p content) := by
  unfold writeInside
  split
  · rename_i parent hparent
    exact (spares_makeDirectories (Path.steps_of_parent? hp hparent).1).bind
      fun _ => spares_write hne
  · exact (Discipline.keeps_pure ()).bind fun _ => spares_write hne

theorem write_eq_ok_iff {content : ByteArray} {tree after : FileTree} :
    write p content tree = .ok () after ↔ tree.write p content = .ok after := by
  unfold write step
  cases hwrite : tree.write p content with
  | ok written => simp [hwrite]
  | error e => simp [hwrite]

/-- What is written is there, and all other files are as they were. -/
theorem writeInside_ok {content : ByteArray} {tree after : FileTree} (hp : p.isAbsolute = true)
    (htree : tree.WellFormed) (h : writeInside p content tree = .ok () after) :
    after.kind? p.location = some (some content) ∧
      ∀ place, place ≠ p.location → ∀ other,
        after.kind? place = some (some other) ↔ tree.kind? place = some (some other) := by
  constructor
  · have hwritten : ∀ {before : FileTree}, before.WellFormed →
        write p content before = .ok () after → after.kind? p.location = some (some content) := by
      intro before hbefore hrun
      rw [FileTree.write_ok hbefore.root (write_eq_ok_iff.mp hrun), if_pos rfl]
    unfold writeInside at h
    cases hparent : p.parent? with
    | none =>
      simp only [hparent] at h
      exact hwritten htree h
    | some parent =>
      simp only [hparent] at h
      -- directories have been made first, and the tree is still well-formed
      obtain ⟨_, made, hmade, h⟩ := bind_eq_ok_iff.mp h
      have hmake : (sparing []).Keeps (makeDirectories parent) :=
        spares_makeDirectories (Path.steps_of_parent? hp hparent).1
      exact hwritten (hmake.holds_of_ok hmade htree) h
  · intro place hplace
    have hkeeps : (sparing place).Keeps (writeInside p content) :=
      spares_writeInside hp (Ne.symm hplace)
    exact (hkeeps.allows_of_ok h htree).2

end FileTask

end StaticSite
