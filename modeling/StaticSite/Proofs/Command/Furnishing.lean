import StaticSite.Command.Run
import StaticSite.Proofs.FileTree.Adding
import StaticSite.Proofs.Site.Failures
/-!
# StaticSite.Proofs.Command.Furnishing

**A new site is furnished without touching what is there.** Its directories are made where they are
missing, and a template is written where its path leads to nothing (`writeTemplates`). In a site
that is there this means that nothing stands at the end of the path (`FileTree.holds_join_iff`), so
the templates that are written and counted are those that were missing (`Completed`), and the others
keep their bytes. This holds whichever of the templates are there before, and what is there stays
wherever the task stops (`adds_furnishSite`).
-/

set_option autoImplicit false

namespace StaticSite

namespace Task

variable {ε α : Type}

/-- The discipline of tasks that print nothing. -/
def silent : Discipline Work where
  holds _ := True
  change before after := after.printed = before.printed
  refl _ := rfl
  trans h hnext := hnext.trans h

theorem silent_onFiles {error : IoError → ε} (task : FileTask α) :
    silent.Keeps (onFiles error task) := by
  refine Discipline.keeps_of_allows fun work _ => ⟨trivial, ?_⟩
  unfold stateAfter onFiles
  cases task work.files with
  | ok a files => rfl
  | error e files => rfl

end Task

namespace Command

open FileTree (adding)

variable {site : Path} {work after : Work} {count : Nat}

/-! ### Adding in a directory

A path that is seen from a site is followed from the directory of the site, so this has to be there
at every step. That it is, and that some places are left alone, is put into one discipline. -/

/-- The discipline of tasks that only add, in trees with a directory, and nothing at some places. -/
def addingIn (dir : Path) (spared : Place → Prop) : Discipline FileTree where
  holds tree := tree.WellFormed ∧ tree.holdsDirectory dir = true
  change before after := adding.change before after ∧
    ∀ place, spared place → after.kind? place = before.kind? place
  refl tree := ⟨adding.refl tree, fun _ _ => rfl⟩
  trans h hnext := ⟨adding.trans h.1 hnext.1,
    fun place hplace => (hnext.2 place hplace).trans (h.2 place hplace)⟩

section

variable {dir q : Path} {spared : Place → Prop} {before tree : FileTree}

theorem addingIn_allows (hbefore : (addingIn dir spared).holds before)
    (h : adding.Allows before tree)
    (hspared : ∀ place, spared place → tree.kind? place = before.kind? place) :
    (addingIn dir spared).Allows before tree :=
  ⟨⟨h.1, FileTree.holdsDirectory_of_adding hbefore.1 h hbefore.2⟩, h.2, hspared⟩

theorem adding_of_addingIn (h : (addingIn dir spared).Allows before tree) :
    adding.Allows before tree :=
  ⟨h.1.1, h.2.1⟩

theorem keeps_of_spared {ε α : Type} {fewer : Place → Prop} {task : Task ε α}
    (hfewer : ∀ place, fewer place → spared place)
    (h : ((addingIn dir spared).onPart Work.files).Keeps task) :
    ((addingIn dir fewer).onPart Work.files).Keeps task := by
  refine Discipline.keeps_of_allows fun work hwork => ?_
  obtain ⟨hholds, hadds, hspared⟩ := h.allows hwork
  exact ⟨hholds, hadds, fun place hplace => hspared place (hfewer place hplace)⟩

theorem keeps_makeDirectories_join (hdir : dir.isAbsolute = true) (hq : q.GoesDown)
    (hspared : ∀ place, spared place → ¬ place <+: (dir.join q).location) :
    (addingIn dir spared).Keeps (FileTask.makeDirectories (dir.join q)) :=
  Discipline.keeps_of_allows fun _ htree =>
    addingIn_allows htree
      ((FileTask.adds_makeDirectories (Path.isAbsolute_join hdir)).allows htree.1)
      fun place hplace => FileTask.kind?_makeDirectories_join hdir htree.1 htree.2 hq
        (hspared place hplace)

end

/-! ### Writing the templates

Whether a template is there is asked when its turn comes, after the earlier ones have been written.
No template stands on the way to a later one, so the answer is that of the beginning. -/

/-- The path of a template, seen from its site. -/
def templatePath (path : Path) : Path := ({} : SitePaths).templates.join path

/-- The file of a template. -/
def templateFile (site path : Path) : Path := (site.join ({} : SitePaths).templates).join path

theorem templateFile_eq (site path : Path) :
    templateFile site path = site.join (templatePath path) :=
  Path.join_assoc ..

/-- What has become of templates that were to be written unless they are there. -/
structure Completed (site : Path) (all : List (Path × String)) (count : Nat)
    (before after : FileTree) : Prop where
  reached : ∀ template ∈ all, after.holds (templateFile site template.1) = true
  kinds : ∀ template ∈ all, after.kind? (templateFile site template.1).location =
    some ((before.kind? (templateFile site template.1).location).getD (some template.2.toUTF8))
  counted : count = all.countP fun template =>
    (before.kind? (templateFile site template.1).location).isNone

section

variable {path : Path} {body : String} {rest all : List (Path × String)}
  {before middle final : FileTree}

/-- It makes no difference what else has been done before. -/
theorem Completed.of_same (h : Completed site all count middle final)
    (hsame : ∀ template ∈ all, middle.kind? (templateFile site template.1).location =
      before.kind? (templateFile site template.1).location) :
    Completed site all count before final where
  reached := h.reached
  kinds template htemplate := by rw [← hsame template htemplate, h.kinds template htemplate]
  counted := by
    rw [h.counted]
    refine List.countP_congr fun template htemplate => ?_
    rw [hsame template htemplate]

/-- A template that is there stays as it is. -/
theorem Completed.there (h : Completed site rest count before final)
    (hbefore : before.WellFormed) (hadds : adding.Allows before final)
    (hheld : before.holds (templateFile site path) = true) :
    Completed site ((path, body) :: rest) count before final := by
  have hstands := (FileTree.holds_iff_target.mp hheld).2.1
  obtain ⟨entry, hentry⟩ := Option.isSome_iff_exists.mp hstands
  refine ⟨List.forall_mem_cons.mpr ⟨?_, h.reached⟩, List.forall_mem_cons.mpr ⟨?_, h.kinds⟩, ?_⟩
  · exact FileTree.holds_of_adding hbefore hadds hheld
  · rw [hadds.2 _ hstands, hentry]
    rfl
  · rw [h.counted, List.countP_cons_of_neg]
    simp [hentry]

/-- A template that was missing has been written. -/
theorem Completed.missing (h : Completed site rest count before final)
    (hmiddle : middle.WellFormed) (hadds : adding.Allows middle final)
    (hnone : before.kind? (templateFile site path).location = none)
    (hself : middle.kind? (templateFile site path).location = some (some body.toUTF8))
    (hheld : middle.holds (templateFile site path) = true) :
    Completed site ((path, body) :: rest) (count + 1) before final := by
  refine ⟨List.forall_mem_cons.mpr ⟨?_, h.reached⟩, List.forall_mem_cons.mpr ⟨?_, h.kinds⟩, ?_⟩
  · exact FileTree.holds_of_adding hmiddle hadds hheld
  · rw [hadds.2 _ (Option.isSome_of_eq_some hself), hself, hnone]
    rfl
  · rw [h.counted, List.countP_cons_of_pos]
    simp [hnone]

theorem writeTemplates_of_there (h : work.files.holds (templateFile site path) = true) :
    writeTemplates (site.join ({} : SitePaths).templates) ((path, body) :: rest) work =
      writeTemplates (site.join ({} : SitePaths).templates) rest work := by
  change (if work.files.holds (templateFile site path) = true then _ else _ :
    Task CommandError Nat) work = _
  rw [if_pos h]

theorem writeTemplates_of_missing (h : work.files.holds (templateFile site path) = false) :
    writeTemplates (site.join ({} : SitePaths).templates) ((path, body) :: rest) work =
      (do
        Task.onFiles .file (.writeInside (templateFile site path) body.toUTF8)
        let count ← writeTemplates (site.join ({} : SitePaths).templates) rest
        pure (count + 1) : Task CommandError Nat) work := by
  change (if work.files.holds (templateFile site path) = true then _ else _ :
    Task CommandError Nat) work = _
  rw [if_neg (by simp [h])]
  rfl

theorem silent_writeTemplates (dir : Path) (all : List (Path × String)) :
    Task.silent.Keeps (writeTemplates dir all) := by
  induction all with
  | nil => exact Discipline.keeps_pure 0
  | cons template rest ih =>
    refine (Task.keeps_look _).bind fun there => ?_
    split
    · exact ih
    · exact (Task.silent_onFiles _).bind fun _ => ih.bind fun _ => Discipline.keeps_pure _

/-- Templates that are written take nothing away, wherever this stops. -/
theorem keeps_writeTemplates (hsite : site.isAbsolute = true)
    (hall : ∀ template ∈ all, (templatePath template.1).GoesDown) :
    ((addingIn site fun _ => False).onPart Work.files).Keeps
      (writeTemplates (site.join ({} : SitePaths).templates) all) := by
  induction all with
  | nil => exact Discipline.keeps_pure 0
  | cons template rest ih =>
    obtain ⟨path, body⟩ := template
    have hrest := ih fun template htemplate => hall template (List.mem_cons_of_mem _ htemplate)
    have hdown := hall (path, body) List.mem_cons_self
    intro work hwork
    cases hthere : work.files.holds (templateFile site path) with
    | true =>
      rw [writeTemplates_of_there hthere]
      exact hrest work hwork
    | false =>
      rw [writeTemplates_of_missing hthere]
      refine Discipline.Allows.bind ?_ fun _ => hrest.bind fun count => Discipline.keeps_pure _
      rw [templateFile_eq] at hthere ⊢
      rw [Discipline.allows_onPart, Build.files_onFiles]
      exact addingIn_allows hwork
        (FileTask.adds_writeInside hsite hwork.1 hwork.2 hdown hthere body.toUTF8) nofun

/-- The templates that are missing are written and counted, the others stay as they are. -/
theorem completed_of_writeTemplates (hsite : site.isAbsolute = true)
    (hall : ∀ template ∈ all, (templatePath template.1).GoesDown)
    (hapart : all.Pairwise fun first second =>
      ¬ (templatePath second.1).steps <+: (templatePath first.1).steps)
    (hwork : (addingIn site fun _ => False).holds work.files)
    (h : writeTemplates (site.join ({} : SitePaths).templates) all work = .ok count after) :
    Completed site all count work.files after.files := by
  induction all generalizing work count with
  | nil =>
    cases h
    exact ⟨by simp, by simp, rfl⟩
  | cons template rest ih =>
    obtain ⟨path, body⟩ := template
    have hrest : ∀ template ∈ rest, (templatePath template.1).GoesDown :=
      fun template htemplate => hall template (List.mem_cons_of_mem _ htemplate)
    have hdown := hall (path, body) List.mem_cons_self
    obtain ⟨hhead, htail⟩ := List.pairwise_cons.mp hapart
    have hkeeps := keeps_writeTemplates hsite hrest
    cases hthere : work.files.holds (templateFile site path) with
    | true =>
      rw [writeTemplates_of_there hthere] at h
      exact (ih hrest htail hwork h).there hwork.1
        (adding_of_addingIn (hkeeps.allows_of_ok h hwork)) hthere
    | false =>
      rw [writeTemplates_of_missing hthere] at h
      obtain ⟨_, middle, hwrite, h⟩ := bind_eq_ok_iff.mp h
      obtain ⟨more, _, hmore, hpure⟩ := bind_eq_ok_iff.mp h
      cases hpure
      obtain ⟨hwrite, -⟩ := Task.onFiles_eq_ok hwrite
      rw [templateFile_eq] at hthere hwrite
      have hwritten := FileTask.adds_writeInside hsite hwork.1 hwork.2 hdown hthere body.toUTF8
      rw [stateAfter_of_ok hwrite] at hwritten
      have hmiddle : (addingIn site fun _ => False).holds middle.files :=
        (addingIn_allows hwork hwritten nofun).1
      obtain ⟨hnone, hself, hheld, hothers⟩ :=
        FileTask.writeInside_missing hsite hwork.1 hwork.2 hdown hthere hwrite
      rw [← templateFile_eq] at hnone hself hheld
      have hadds := adding_of_addingIn (hkeeps.allows_of_ok hmore hmiddle)
      refine ((ih hrest htail hmiddle hmore).of_same fun template htemplate => ?_).missing
        hmiddle.1 hadds hnone hself hheld
      -- no later template stands on the way of this one
      refine hothers _ fun hunder => hhead template htemplate ?_
      rw [templateFile_eq] at hunder
      exact ((hrest template htemplate).location_prefix_iff hdown).mp hunder

end

/-! ### Furnishing a site

Directories are made first, and a template could be kept from its place by one of them, or one of
them by a template. Neither is so for the paths that a new site has, as is checked on their list. -/

/-- The path of a directory of content, seen from its site. -/
def contentPath (name : String) : Path := ({} : SitePaths).content.join (.ofString name)

theorem contentDirectory_eq (site : Path) (name : String) :
    (site.join ({} : SitePaths).content).child name = site.join (contentPath name) :=
  Path.join_assoc ..

/-- The paths of the directories that a new site has, seen from it. -/
def siteDirectories : List Path :=
  Starter.contentDirectories.map contentPath ++ [({} : SitePaths).assets]

theorem goesDown_siteDirectories : ∀ q ∈ siteDirectories, q.GoesDown := by decide +kernel

theorem goesDown_templates :
    ∀ template ∈ Starter.templates, (templatePath template.1).GoesDown := by decide +kernel

/-- No template stands on the way to a later one. -/
theorem apart_templates : Starter.templates.Pairwise fun first second =>
    ¬ (templatePath second.1).steps <+: (templatePath first.1).steps := by decide +kernel

/-- No template stands on the way to a directory. -/
theorem apart_siteDirectories : ∀ q ∈ siteDirectories, ∀ template ∈ Starter.templates,
    ¬ (templatePath template.1).steps <+: q.steps := by decide +kernel

/-- Makes the directories of a site. -/
def makeSiteDirectories (site : Path) : Task CommandError Unit :=
  Task.forEach (fun q => Task.onFiles .file (.makeDirectories (site.join q))) siteDirectories

/-- Puts directories and templates into a site. -/
def furnishSite (site : Path) : Task CommandError Unit := do
  let paths : SitePaths := {}
  Task.forEach (fun name =>
    Task.onFiles .file (.makeDirectories ((site.join paths.content).child name)))
    Starter.contentDirectories
  Task.onFiles .file (.makeDirectories (site.join paths.assets))
  let count ← writeTemplates (site.join paths.templates) Starter.templates
  Task.print ("Created " ++ toString count ++ " starter template(s)")

theorem furnishSite_eq (site : Path) :
    furnishSite site = (do
      makeSiteDirectories site
      let count ← writeTemplates (site.join ({} : SitePaths).templates) Starter.templates
      Task.print ("Created " ++ toString count ++ " starter template(s)")) := by
  unfold furnishSite makeSiteDirectories siteDirectories Starter.contentDirectories
  simp only [List.map_cons, List.map_nil, List.cons_append, List.nil_append, Task.forEach,
    bind_assoc, pure_bind, ← contentDirectory_eq]

/-- Whether a template goes to a place. -/
def TemplatePlace (site : Path) (place : Place) : Prop :=
  ∃ template ∈ Starter.templates, place = (templateFile site template.1).location

/-- The directories of a site are made without a change where templates go. -/
theorem keeps_makeSiteDirectory (hsite : site.isAbsolute = true) {q : Path}
    (hq : q ∈ siteDirectories) :
    ((addingIn site (TemplatePlace site)).onPart Work.files).Keeps
      (Task.onFiles CommandError.file (.makeDirectories (site.join q))) := by
  have hdown := goesDown_siteDirectories q hq
  refine Task.yields_onFiles (keeps_makeDirectories_join hsite hdown ?_)
  rintro place ⟨template, htemplate, rfl⟩ hunder
  rw [templateFile_eq] at hunder
  exact apart_siteDirectories q hq template htemplate
    (((goesDown_templates template htemplate).location_prefix_iff hdown).mp hunder)

theorem keeps_makeSiteDirectories (hsite : site.isAbsolute = true) :
    ((addingIn site (TemplatePlace site)).onPart Work.files).Keeps (makeSiteDirectories site) :=
  Task.keeps_forEach fun _ hq => keeps_makeSiteDirectory hsite hq

/-- What is there stays when a site is furnished, wherever this stops. -/
theorem adds_furnishSite (hsite : site.isAbsolute = true) :
    ((addingIn site fun _ => False).onPart Work.files).Keeps (furnishSite site) := by
  rw [furnishSite_eq]
  refine Discipline.Keeps.bind (keeps_of_spared (fun _ => False.elim)
    (keeps_makeSiteDirectories hsite)) fun _ => ?_
  exact (keeps_writeTemplates hsite goesDown_templates).bind fun _ => Task.keeps_print _

/-- What a site has when directories and templates have been put into it. -/
structure Furnished (site : Path) (count : Nat) (before after : FileTree) : Prop where
  directories : ∀ q ∈ siteDirectories, after.holdsDirectory (site.join q) = true
  templates : Completed site Starter.templates count before after

theorem furnished_of_furnishSite (hsite : site.isAbsolute = true)
    (hwork : (addingIn site fun _ => False).holds work.files)
    (h : furnishSite site work = .ok () after) :
    ∃ count, Furnished site count work.files after.files ∧
      after.printed = work.printed ++ ["Created " ++ toString count ++ " starter template(s)"] := by
  rw [furnishSite_eq] at h
  obtain ⟨_, made, hmake, h⟩ := bind_eq_ok_iff.mp h
  obtain ⟨count, written, hwrite, hprint⟩ := bind_eq_ok_iff.mp h
  cases hprint
  have hmade := (keeps_makeSiteDirectories hsite).allows_of_ok hmake hwork
  have hwritten := (keeps_writeTemplates hsite goesDown_templates).allows_of_ok hwrite hmade.1
  have hthere : ∀ q ∈ siteDirectories, made.files.holdsDirectory (site.join q) = true := by
    refine Task.forEach_establishes (fun q work => work.files.holdsDirectory (site.join q) = true)
      (fun q hq => keeps_makeSiteDirectory hsite hq) (fun q _ before after hbefore hrun => ?_)
      (fun q before after hbefore hallows hheld => ?_) hwork hmake
    · exact FileTask.holdsDirectory_makeDirectories (Path.isAbsolute_join hsite) hbefore.1
        (Task.onFiles_eq_ok hrun).1
    · exact FileTree.holdsDirectory_of_adding hbefore.1 (adding_of_addingIn hallows) hheld
  refine ⟨count, ⟨fun q hq => ?_, ?_⟩, ?_⟩
  · exact FileTree.holdsDirectory_of_adding hmade.1.1 (adding_of_addingIn hwritten) (hthere q hq)
  · refine (completed_of_writeTemplates hsite goesDown_templates apart_templates hmade.1
      hwrite).of_same fun template htemplate => ?_
    exact hmade.2.2 _ ⟨template, htemplate, rfl⟩
  · have hquiet : made.printed = work.printed :=
      ((Task.keeps_forEach fun _ _ => Task.silent_onFiles _ : Task.silent.Keeps
        (makeSiteDirectories site)).allows_of_ok hmake trivial).2
    have hsilent : written.printed = made.printed :=
      ((silent_writeTemplates _ _).allows_of_ok hwrite trivial).2
    rw [← hquiet, ← hsilent]

end Command

end StaticSite
