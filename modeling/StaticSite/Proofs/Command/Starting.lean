import StaticSite.Proofs.Command.Furnishing
/-!
# StaticSite.Proofs.Command.Starting

What `init` does, in any tree and wherever it stops. It makes the directory of the site
(`makeSite`), writes a configuration into it (`configureSite`) and furnishes it. Each part only
adds, so **a start adds what is missing and touches nothing else, and is not repeated**
(`init_adds_what_is_missing`).

Whether there is a configuration is asked when the directory has been made. A path that goes through
a directory which is missing and then back leads to nothing before that and to a site afterwards, so
a start can be refused for the configuration of that site after it has made a directory
(`init_makes_directory_beside_configuration`). Other paths do not mislead so (`LeadsStraight`).
-/

set_option autoImplicit false

namespace StaticSite.Command

open FileTree (adding)

variable {site : Path} {create : Bool} {work after : Work} {count : Nat}

/-! ### The parts of a start

The command asks two questions, for the directory and for the configuration, and each is asked after
what came before it has been done. It is divided where it asks. -/

/-- The configuration of a site. -/
def siteConfig (site : Path) : Path := site.child defaultConfigFile

theorem isName_defaultConfigFile : IsName defaultConfigFile := by decide +kernel

/-- Makes the directory of a site, if it is missing and may be made. -/
def makeSite (site : Path) (create : Bool) : Task CommandError Unit := do
  let there ← Task.look (·.holds site)
  if there then pure ()
  else if create then
    Task.onFiles .file (.makeDirectories site)
    Task.print ("Created directory " ++ site.toString)
  else throw (.noDirectory site)

/-- Writes the configuration of a site. -/
def configureSite (site : Path) : Task CommandError Unit := do
  Task.print ("Initializing project in " ++ site.toString)
  Task.onFiles .file (.write (siteConfig site) Starter.configuration.toUTF8)
  Task.print ("Created config file " ++ (siteConfig site).toString)

/-- Configures and furnishes a site, unless there is a configuration. -/
def fillSite (site : Path) : Task CommandError Unit := do
  let there ← Task.look (·.holds (siteConfig site))
  if there then throw (.configExists (siteConfig site))
  else
    Task.print ("Initializing project in " ++ site.toString)
    Task.onFiles .file (.write (siteConfig site) Starter.configuration.toUTF8)
    Task.print ("Created config file " ++ (siteConfig site).toString)
    furnishSite site

theorem startSite_eq (site : Path) (create : Bool) :
    startSite site create = (do makeSite site create; fillSite site) := by
  unfold startSite makeSite
  rw [bind_assoc]
  refine bind_congr fun there => ?_
  cases there with
  | true => rfl
  | false =>
    cases create with
    | false => rfl
    | true =>
      exact (bind_assoc (Task.onFiles .file (.makeDirectories site))
        (fun _ => Task.print ("Created directory " ++ site.toString)) fun _ => fillSite site).symm

/-! ### Making the directory -/

/-- What is printed about the directory of a site. -/
def directoryLines (site : Path) (files : FileTree) : List String :=
  if files.holds site then [] else ["Created directory " ++ site.toString]

theorem makeSite_of_holds (h : work.files.holds site = true) (create : Bool) :
    makeSite site create work = .ok () work := by
  change (if work.files.holds site = true then pure () else _ : Task CommandError Unit) work = _
  rw [if_pos h]
  rfl

/-- Nothing is done for a directory that is there. -/
theorem eq_of_makeSite (hheld : work.files.holds site = true)
    (h : makeSite site create work = .ok () after) : after = work := by
  rw [makeSite_of_holds hheld] at h
  cases h
  rfl

theorem makeSite_of_missing (h : work.files.holds site = false) (create : Bool) :
    makeSite site create work =
      (if create then do
        Task.onFiles .file (.makeDirectories site)
        Task.print ("Created directory " ++ site.toString)
      else throw (.noDirectory site) : Task CommandError Unit) work := by
  change (if work.files.holds site = true then pure () else _ : Task CommandError Unit) work = _
  rw [if_neg (by simp [h])]

/-- The directory of a site is there, or has been made. -/
theorem makeSite_ok (h : makeSite site create work = .ok () after) :
    after.printed = work.printed ++ directoryLines site work.files ∧
      (work.files.holds site = true ∧ after = work ∨
        work.files.holds site = false ∧ create = true ∧
          FileTask.makeDirectories site work.files = .ok () after.files) := by
  unfold directoryLines
  cases hheld : work.files.holds site with
  | true =>
    rw [makeSite_of_holds hheld] at h
    cases h
    simp
  | false =>
    rw [makeSite_of_missing hheld] at h
    cases create with
    | false => cases h
    | true =>
      obtain ⟨_, made, hmake, hprint⟩ := bind_eq_ok_iff.mp h
      obtain ⟨hmake, hmade⟩ := Task.onFiles_eq_ok hmake
      rw [hmade] at hprint
      cases hprint
      exact ⟨rfl, .inr ⟨rfl, rfl, hmake⟩⟩

/-- Nothing is done to the files but that the directory is made, if it is missing. -/
theorem files_makeSite (site : Path) (create : Bool) (work : Work) :
    (stateAfter (makeSite site create) work).files = work.files ∨
      work.files.holds site = false ∧
        (stateAfter (makeSite site create) work).files =
          stateAfter (FileTask.makeDirectories site) work.files := by
  cases hheld : work.files.holds site with
  | true =>
    rw [stateAfter_of_ok (makeSite_of_holds hheld create)]
    exact .inl rfl
  | false =>
    have hrun := makeSite_of_missing hheld create
    cases create with
    | false =>
      rw [stateAfter_of_error hrun]
      exact .inl rfl
    | true =>
      refine .inr ⟨rfl, ?_⟩
      rw [← Build.files_onFiles CommandError.file]
      cases hmake : Task.onFiles CommandError.file (.makeDirectories site) work with
      | ok _ made => rw [stateAfter_of_ok (hrun.trans (bind_of_ok hmake)), stateAfter_of_ok hmake]
      | error e made =>
        rw [stateAfter_of_error (hrun.trans (bind_eq_error_iff.mpr (.inl hmake))),
          stateAfter_of_error hmake]

theorem adds_makeSite (hsite : site.isAbsolute = true) (create : Bool) :
    (adding.onPart Work.files).Keeps (makeSite site create) := by
  refine Discipline.keeps_of_allows fun work hwork => ?_
  rw [Discipline.allows_onPart]
  rcases files_makeSite site create work with hsame | ⟨-, hmade⟩
  · rw [hsame]
    exact Discipline.allows_refl hwork
  · rw [hmade]
    exact (FileTask.adds_makeDirectories hsite).allows hwork

theorem opened_makeSite (hsite : site.isAbsolute = true) (hfiles : work.files.WellFormed)
    (h : makeSite site create work = .ok () after) :
    FileTask.Opened site work.files after.files := by
  rcases (makeSite_ok h).2 with ⟨-, rfl⟩ | ⟨-, -, hmade⟩
  · exact FileTask.opened_refl hfiles
  · exact FileTask.opened_makeDirectories hsite hfiles hmade

/-! ### Filling a site -/

theorem fillSite_of_there (h : work.files.holds (siteConfig site) = true) :
    fillSite site work = .error (.configExists (siteConfig site)) work := by
  change (if work.files.holds (siteConfig site) = true then _ else _ :
    Task CommandError Unit) work = _
  rw [if_pos h]
  rfl

theorem fillSite_of_missing (h : work.files.holds (siteConfig site) = false) :
    fillSite site work = (do configureSite site; furnishSite site) work := by
  change (if work.files.holds (siteConfig site) = true then _ else _ :
    Task CommandError Unit) work = _
  rw [if_neg (by simp [h])]
  unfold configureSite
  simp only [bind_assoc]

/-- What is printed about the configuration of a site. -/
def configurationLines (site : Path) : List String :=
  ["Initializing project in " ++ site.toString,
    "Created config file " ++ (siteConfig site).toString]

theorem configureSite_ok (h : configureSite site work = .ok () after) :
    FileTask.write (siteConfig site) Starter.configuration.toUTF8 work.files = .ok () after.files ∧
      after.printed = work.printed ++ configurationLines site := by
  obtain ⟨_, begun, hbegin, h⟩ := bind_eq_ok_iff.mp h
  obtain ⟨_, written, hwrite, hend⟩ := bind_eq_ok_iff.mp h
  cases hbegin
  cases hend
  obtain ⟨hwrite, hwritten⟩ := Task.onFiles_eq_ok hwrite
  refine ⟨hwrite, ?_⟩
  rw [hwritten]
  exact List.append_assoc ..

/-- A configuration that cannot be written has changed no file. -/
theorem files_of_configureSite_eq_error {e : CommandError}
    (h : configureSite site work = .error e after) : after.files = work.files := by
  rcases bind_eq_error_iff.mp h with hbegin | ⟨_, begun, hbegin, h⟩
  · cases hbegin
  cases hbegin
  rcases bind_eq_error_iff.mp h with hwrite | ⟨_, written, -, hend⟩
  · unfold Task.onFiles at hwrite
    split at hwrite
    · cases hwrite
    · rename_i files hrun
      cases hwrite
      exact FileTask.eq_of_write_eq_error hrun
  · cases hend

/-- A configuration that was not there is written into the directory of the site. -/
theorem configured_of_configureSite (hfiles : work.files.WellFormed)
    (hfree : work.files.holds (siteConfig site) = false)
    (h : configureSite site work = .ok () after) :
    work.files.kind? (siteConfig site).location = none ∧
      (addingIn site (· ≠ (siteConfig site).location)).Allows work.files after.files ∧
      after.files.kind? (siteConfig site).location = some (some Starter.configuration.toUTF8) ∧
      after.files.holds (siteConfig site) = true := by
  obtain ⟨hdir, hnone, hadds, hself, hheld, hothers⟩ :=
    FileTask.write_child_missing isName_defaultConfigFile hfiles hfree (configureSite_ok h).1
  exact ⟨hnone, addingIn_allows ⟨hfiles, hdir⟩ hadds hothers, hself, hheld⟩

/-- A site in which something stands where its configuration goes is not filled. -/
theorem fillSite_of_taken (hfiles : work.files.WellFormed)
    (htaken : (work.files.kind? (siteConfig site).location).isSome) :
    ∃ e after, fillSite site work = .error e after ∧ after.files = work.files := by
  cases hthere : work.files.holds (siteConfig site) with
  | true => exact ⟨_, work, fillSite_of_there hthere, rfl⟩
  | false =>
    rw [fillSite_of_missing hthere]
    cases hconfigure : configureSite site work with
    | error e failed =>
      exact ⟨e, failed, bind_eq_error_iff.mpr (.inl hconfigure),
        files_of_configureSite_eq_error hconfigure⟩
    | ok _ configured =>
      rw [(configured_of_configureSite hfiles hthere hconfigure).1] at htaken
      cases htaken

/-- What is there stays when a site is filled, wherever this stops. -/
theorem adds_fillSite (hsite : site.isAbsolute = true) :
    (adding.onPart Work.files).Keeps (fillSite site) := by
  refine Discipline.keeps_of_allows fun work hwork => ?_
  rw [Discipline.allows_onPart]
  cases hthere : work.files.holds (siteConfig site) with
  | true =>
    rw [stateAfter_of_error (fillSite_of_there hthere)]
    exact Discipline.allows_refl hwork
  | false =>
    have hrun := fillSite_of_missing hthere
    cases hconfigure : configureSite site work with
    | error e failed =>
      rw [stateAfter_of_error (hrun.trans (bind_eq_error_iff.mpr (.inl hconfigure))),
        files_of_configureSite_eq_error hconfigure]
      exact Discipline.allows_refl hwork
    | ok _ configured =>
      have hconfigured := (configured_of_configureSite hwork hthere hconfigure).2.1
      have hfurnished := (adds_furnishSite hsite).allows hconfigured.1
      have hsame : stateAfter (fillSite site) work = stateAfter (furnishSite site) configured := by
        unfold stateAfter
        rw [hrun, bind_of_ok hconfigure]
      rw [hsame]
      exact (adding_of_addingIn hconfigured).trans (adding_of_addingIn hfurnished)

theorem raises_writeTemplates {allowed : CommandError → Prop} (h : ∀ e, allowed (.file e))
    (dir : Path) (all : List (Path × String)) : Raises allowed (writeTemplates dir all) := by
  induction all with
  | nil => exact raises_of_ok fun _ => ⟨_, _, rfl⟩
  | cons template rest ih =>
    refine (Task.raises_look _).bind fun there => ?_
    split
    · exact ih
    · exact (Task.raises_onFiles h _).bind fun _ => ih.bind fun _ =>
        raises_of_ok fun _ => ⟨_, _, rfl⟩

/-- Once it has been seen that there is no configuration, only files are a cause of errors. -/
theorem raises_configure_furnish {allowed : CommandError → Prop} (h : ∀ e, allowed (.file e))
    (site : Path) :
    Raises allowed (do configureSite site; furnishSite site : Task CommandError Unit) := by
  have hconfigure : Raises allowed (configureSite site) :=
    (Task.raises_print _).bind fun _ => (Task.raises_onFiles h _).bind fun _ => Task.raises_print _
  refine hconfigure.bind fun _ => ?_
  refine (Task.raises_forEach (fun _ => Task.raises_onFiles h _) _).bind fun _ => ?_
  refine (Task.raises_onFiles h _).bind fun _ => ?_
  exact (raises_writeTemplates h _ _).bind fun _ => Task.raises_print _

/-- A site is found to be there only if it has a configuration. -/
theorem fillSite_eq_configExists_iff {p : Path} :
    fillSite site work = .error (.configExists p) after ↔
      work.files.holds (siteConfig site) = true ∧ p = siteConfig site ∧ after = work := by
  cases hthere : work.files.holds (siteConfig site) with
  | true =>
    rw [fillSite_of_there hthere]
    constructor
    · rintro ⟨⟩
      exact ⟨rfl, rfl, rfl⟩
    · rintro ⟨-, rfl, rfl⟩
      rfl
  | false =>
    rw [fillSite_of_missing hthere]
    refine ⟨fun h => ?_, nofun⟩
    have hraises : Raises (fun e => ∀ p, e ≠ .configExists p)
        (do configureSite site; furnishSite site : Task CommandError Unit) :=
      raises_configure_furnish (fun _ _ => nofun) site
    exact absurd rfl (hraises _ _ _ h p)

/-! ### What a start has brought about

The templates are counted when they are written. From outside they are those in whose place
something stands now and nothing did before, since directories are made in none of these places. -/

/-- What a site has when it has been started. -/
structure Started (site : Path) (before after : FileTree) : Prop where
  /-- The configuration is new. -/
  fresh : before.kind? (siteConfig site).location = none
  configuration :
    after.kind? (siteConfig site).location = some (some Starter.configuration.toUTF8)
  reached : after.holds (siteConfig site) = true
  content : after.holdsDirectory (site.join ({} : SitePaths).content) = true
  directories : ∀ q ∈ siteDirectories, after.holdsDirectory (site.join q) = true
  templates : ∀ template ∈ Starter.templates, after.holds (templateFile site template.1) = true

theorem templateFile_ne_siteConfig (site : Path) :
    ∀ template ∈ Starter.templates,
      (templateFile site template.1).location ≠ (siteConfig site).location := by
  have hsteps : ∀ template ∈ Starter.templates,
      (templatePath template.1).steps ≠ [defaultConfigFile] := by decide +kernel
  intro template htemplate heq
  rw [templateFile_eq, (goesDown_templates template htemplate).location_join, siteConfig,
    Path.location_child isName_defaultConfigFile] at heq
  exact hsteps template htemplate (List.append_cancel_left heq)

/-- No directory of content is there without the directory of all content. -/
theorem holdsDirectory_content {tree : FileTree} (htree : tree.WellFormed)
    (h : ∀ q ∈ siteDirectories, tree.holdsDirectory (site.join q) = true) :
    tree.holdsDirectory (site.join ({} : SitePaths).content) = true := by
  have hname : IsName "articles" := by decide +kernel
  have harticles := h (contentPath "articles") (by decide +kernel)
  rw [← contentDirectory_eq] at harticles
  exact FileTree.holdsDirectory_of_target_child htree.root hname
    (FileTree.holdsDirectory_iff_target.mp harticles).1

theorem started_of_fillSite (hsite : site.isAbsolute = true) (hfiles : work.files.WellFormed)
    (h : fillSite site work = .ok () after) :
    ∃ count, Started site work.files after.files ∧
      Completed site Starter.templates count work.files after.files ∧
      after.printed = work.printed ++ configurationLines site ++
        ["Created " ++ toString count ++ " starter template(s)"] := by
  cases hthere : work.files.holds (siteConfig site) with
  | true =>
    rw [fillSite_of_there hthere] at h
    cases h
  | false =>
    rw [fillSite_of_missing hthere] at h
    obtain ⟨_, configured, hconfigure, hfurnish⟩ := bind_eq_ok_iff.mp h
    obtain ⟨hnone, hconfigured, hself, hheld⟩ :=
      configured_of_configureSite hfiles hthere hconfigure
    obtain ⟨count, hfurnished, hprinted⟩ :=
      furnished_of_furnishSite hsite hconfigured.1 hfurnish
    have hadds := adding_of_addingIn
      ((adds_furnishSite hsite).allows_of_ok hfurnish hconfigured.1)
    refine ⟨count, ?_, hfurnished.templates.of_same fun template htemplate =>
      hconfigured.2.2 _ (templateFile_ne_siteConfig site template htemplate), ?_⟩
    · exact {
        fresh := hnone
        configuration := by rw [hadds.2 _ (Option.isSome_of_eq_some hself), hself]
        reached := FileTree.holds_of_adding hconfigured.1.1 hadds hheld
        content := holdsDirectory_content hadds.1 hfurnished.directories
        directories := hfurnished.directories
        templates := hfurnished.templates.reached }
    · rw [hprinted, (configureSite_ok hconfigure).2]

/-- Whether there was nothing in the place of a template, and is a file now. -/
def isNew (site : Path) (before after : FileTree) (template : Path × String) : Bool :=
  (before.kind? (templateFile site template.1).location).isNone &&
    (after.kind? (templateFile site template.1).location).join.isSome

/-- The starter templates that a site has got. -/
def newTemplates (site : Path) (before after : FileTree) : List (Path × String) :=
  Starter.templates.filter (isNew site before after)

section

variable {before made final : FileTree} {template : Path × String}

/-- A template is new if there was nothing in its place once directories had been made. -/
theorem Completed.isNew_iff (h : Completed site Starter.templates count made final)
    (hopened : FileTask.Opened site before made) (htemplate : template ∈ Starter.templates) :
    isNew site before final template = true ↔
      made.kind? (templateFile site template.1).location = none := by
  have hkinds := h.kinds template htemplate
  unfold isNew
  rw [Bool.and_eq_true, Option.isNone_iff_eq_none, Option.isSome_iff_exists]
  constructor
  · rintro ⟨hnone, content, hnew⟩
    rw [Option.join_eq_some_iff] at hnew
    cases hmade : made.kind? (templateFile site template.1).location with
    | none => rfl
    | some entry =>
      -- a file that is there now was there before
      rw [hnew, hmade, Option.getD_some] at hkinds
      cases hkinds
      rw [(hopened.files _ _).mp hmade] at hnone
      cases hnone
  · intro hnone
    rw [hnone, Option.getD_none] at hkinds
    exact ⟨FileTree.kind?_of_adding hopened.adds hnone, _, Option.join_eq_some_iff.mpr hkinds⟩

theorem Completed.length_newTemplates (h : Completed site Starter.templates count made final)
    (hopened : FileTask.Opened site before made) :
    (newTemplates site before final).length = count := by
  rw [h.counted, newTemplates, ← List.countP_eq_length_filter]
  refine List.countP_congr fun template htemplate => ?_
  rw [h.isNew_iff hopened htemplate, Option.isNone_iff_eq_none]

/-- What is new is the starter's. -/
theorem Completed.kind?_of_mem_newTemplates
    (h : Completed site Starter.templates count made final)
    (hopened : FileTask.Opened site before made)
    (hnew : template ∈ newTemplates site before final) :
    final.kind? (templateFile site template.1).location = some (some template.2.toUTF8) := by
  obtain ⟨htemplate, htest⟩ := List.mem_filter.mp hnew
  rw [h.kinds template htemplate, (h.isNew_iff hopened htemplate).mp htest]
  rfl

end

/-! ### The start as a whole -/

theorem adds_startSite (hsite : site.isAbsolute = true) (create : Bool) :
    (adding.onPart Work.files).Keeps (startSite site create) := by
  rw [startSite_eq]
  exact (adds_makeSite hsite create).bind fun _ => adds_fillSite hsite

/-- No site is started where a configuration is. -/
theorem startSite_of_configured (hfiles : work.files.WellFormed)
    (h : work.files.holds (siteConfig site) = true) (create : Bool) :
    startSite site create work = .error (.configExists (siteConfig site)) work := by
  have hdir := FileTree.holdsDirectory_of_target_child hfiles.root isName_defaultConfigFile
    (FileTree.holds_iff_target.mp h).1
  rw [startSite_eq, bind_of_ok (makeSite_of_holds (FileTree.holds_of_holdsDirectory hdir) create)]
  exact fillSite_of_there h

theorem startSite_of_missing (h : work.files.holds site = false) :
    startSite site false work = .error (.noDirectory site) work := by
  rw [startSite_eq]
  exact bind_eq_error_iff.mpr (.inl (makeSite_of_missing h false))

/-- That there is a configuration already is said only when there is one. -/
theorem startSite_eq_configExists {p : Path}
    (h : startSite site create work = .error (.configExists p) after) :
    p = siteConfig site ∧ after.files.holds (siteConfig site) = true ∧
      (work.files.holds site = true → after = work) := by
  rw [startSite_eq] at h
  rcases bind_eq_error_iff.mp h with hmake | ⟨_, made, hmake, hfill⟩
  · have hraises : Raises (fun e => ∀ p, e ≠ .configExists p) (makeSite site create) := by
      refine (Task.raises_look _).bind fun there => ?_
      split
      · exact raises_of_ok fun _ => ⟨_, _, rfl⟩
      · split
        · exact (Task.raises_onFiles (fun _ _ => nofun) _).bind fun _ => Task.raises_print _
        · rintro _ _ _ ⟨⟩ p
          nofun
    exact absurd rfl (hraises _ _ _ hmake p)
  · obtain ⟨hthere, rfl, rfl⟩ := fillSite_eq_configExists_iff.mp hfill
    exact ⟨rfl, hthere, fun hheld => eq_of_makeSite hheld hmake⟩

/-- A site that is started is filled after directories have been made on its way. -/
theorem startSite_ok (hsite : site.isAbsolute = true) (hfiles : work.files.WellFormed)
    (h : startSite site create work = .ok () after) :
    ∃ made count, FileTask.Opened site work.files made.files ∧
      (work.files.holds site = true → made = work) ∧
      Started site made.files after.files ∧
      Completed site Starter.templates count made.files after.files ∧
      after.printed = work.printed ++ directoryLines site work.files ++ configurationLines site ++
        ["Created " ++ toString count ++ " starter template(s)"] := by
  rw [startSite_eq] at h
  obtain ⟨_, made, hmake, hfill⟩ := bind_eq_ok_iff.mp h
  have hopened := opened_makeSite hsite hfiles hmake
  obtain ⟨count, hstarted, hcompleted, hprinted⟩ := started_of_fillSite hsite hopened.adds.1 hfill
  refine ⟨made, count, hopened, fun hheld => eq_of_makeSite hheld hmake, hstarted, hcompleted, ?_⟩
  rw [hprinted, (makeSite_ok hmake).1]

/-! ### Paths that do not mislead

A path without `..` passes only what is above the site. Making its directory then brings nothing
into view that was not in view before. -/

/-- Whether the path of a site leads to something, or cannot pass anything but what is above it. -/
def LeadsStraight (site : Path) (tree : FileTree) : Prop :=
  tree.holds site = true ∨ ".." ∉ site.steps

theorem kind?_makeSite (hsite : site.isAbsolute = true) (hfiles : work.files.WellFormed)
    (hway : LeadsStraight site work.files)
    {place : Place} (hplace : place <+: site.location → work.files.kind? place = some none) :
    (stateAfter (makeSite site create) work).files.kind? place = work.files.kind? place := by
  rcases files_makeSite site create work with hsame | ⟨hmissing, hmade⟩
  · rw [hsame]
  · have hforward : ".." ∉ site.steps := hway.resolve_left (by simp [hmissing])
    rw [hmade]
    rcases FileTask.makeDirectories_changes hsite hfiles place with hsame | ⟨hpasses, hnone, -⟩
    · exact hsame
    · rw [hplace (hpasses.prefix_of_forward hforward)] at hnone
      cases hnone

/-- A site in which something stands where its configuration goes is not started, and nothing is
changed. -/
theorem startSite_of_taken (hsite : site.isAbsolute = true) (hfiles : work.files.WellFormed)
    (hway : LeadsStraight site work.files)
    (htaken : (work.files.kind? (siteConfig site).location).isSome) (create : Bool) :
    ∃ e after, startSite site create work = .error e after ∧
      ∀ place, after.files.kind? place = work.files.kind? place := by
  have hdir : work.files.kind? site.location = some none := by
    rw [siteConfig, Path.location_child isName_defaultConfigFile] at htaken
    exact FileTree.kind?_parent htaken
  have hmade : ∀ place, (stateAfter (makeSite site create) work).files.kind? place =
      work.files.kind? place :=
    fun place => kind?_makeSite hsite hfiles hway fun habove => FileTree.kind?_of_prefix hdir habove
  rw [startSite_eq]
  cases hmake : makeSite site create work with
  | error e failed =>
    rw [stateAfter_of_error hmake] at hmade
    exact ⟨e, failed, bind_eq_error_iff.mpr (.inl hmake), hmade⟩
  | ok _ made =>
    rw [stateAfter_of_ok hmake] at hmade
    rw [← hmade] at htaken
    rw [bind_of_ok hmake]
    obtain ⟨e, failed, hfill, hsame⟩ :=
      fillSite_of_taken (opened_makeSite hsite hfiles hmake).adds.1 htaken
    exact ⟨e, failed, hfill, by rwa [hsame]⟩

/-- A template is new if there was nothing in its place. -/
theorem kind?_template (hsite : site.isAbsolute = true) (hfiles : work.files.WellFormed)
    (hway : LeadsStraight site work.files) (h : startSite site create work = .ok () after) :
    ∀ template ∈ Starter.templates,
      after.files.kind? (templateFile site template.1).location =
        some ((work.files.kind? (templateFile site template.1).location).getD
          (some template.2.toUTF8)) := by
  obtain ⟨made, count, hopened, hsame, -, hcompleted, -⟩ := startSite_ok hsite hfiles h
  intro template htemplate
  rw [hcompleted.kinds template htemplate]
  rcases hway with hheld | hforward
  · rw [hsame hheld]
  · rw [hopened.others _ fun hpasses => ?_]
    have habove := hpasses.prefix_of_forward hforward
    rw [templateFile_eq] at habove
    exact (goesDown_templates template htemplate).not_above habove

/-! ### The command -/

section

variable {place : Workplace} {path : Path}

theorem run_init (place : Workplace) (path : Path) (create : Bool) :
    run place (.init path create) =
      (do startSite (place.directory.resolve path) create; pure .finished) := rfl

theorem run_init_eq_ok_iff {outcome : Outcome} :
    run place (.init path create) work = .ok outcome after ↔
      startSite (place.directory.resolve path) create work = .ok () after ∧
        outcome = .finished := by
  rw [run_init, bind_eq_ok_iff]
  constructor
  · rintro ⟨_, _, h, ⟨⟩⟩
    exact ⟨h, rfl⟩
  · rintro ⟨h, rfl⟩
    exact ⟨(), after, h, rfl⟩

theorem run_init_eq_error_iff {e : CommandError} :
    run place (.init path create) work = .error e after ↔
      startSite (place.directory.resolve path) create work = .error e after := by
  rw [run_init, bind_eq_error_iff]
  exact or_iff_left nofun

/-- All starter templates go to places of their own. -/
theorem nodup_templateFiles (site : Path) :
    (Starter.templates.map fun template => (templateFile site template.1).location).Nodup := by
  rw [List.nodup_iff_pairwise_ne, List.pairwise_map]
  refine List.Pairwise.imp_of_mem (fun {first second} hfirst hsecond hapart heq => ?_)
    apart_templates
  rw [templateFile_eq, templateFile_eq] at heq
  have hunder : (site.join (templatePath second.1)).location <+:
      (site.join (templatePath first.1)).location := heq ▸ List.prefix_rfl
  exact hapart (((goesDown_templates second hsecond).location_prefix_iff
    (goesDown_templates first hfirst)).mp hunder)

/-- **Starting a site adds what is missing and touches nothing else.** Whatever comes of it and
wherever it stops, all that stands somewhere stays as it is. Nothing is done at all where the path
leads to a configuration, or to nothing and no directory is to be made, and that there is a
configuration is said only if there is one in the end. A start that succeeds has written a
configuration where none was; the directories and all eleven templates are there, those that are new
are the starter's, and their number is printed. Any second start is refused without a change.

A path that leads to something, or that does not go back, does not mislead: then nothing is changed
wherever something stands in the place of the configuration, and every template is the starter's
unless something stood in its place. -/
theorem init_adds_what_is_missing (hplace : place.directory.isAbsolute = true) (path : Path)
    (create : Bool) (hfiles : work.files.WellFormed) :
    let site := place.directory.resolve path
    let init := run place (.init path create)
    (Starter.templates.length = 11 ∧
      (Starter.templates.map fun template => (templateFile site template.1).location).Nodup) ∧
    (∀ there, (work.files.kind? there).isSome →
      (stateAfter init work).files.kind? there = work.files.kind? there) ∧
    (work.files.holds (siteConfig site) = true →
      init work = .error (.configExists (siteConfig site)) work) ∧
    (work.files.holds site = false → create = false →
      init work = .error (.noDirectory site) work) ∧
    (∀ p after, init work = .error (.configExists p) after →
      p = siteConfig site ∧ after.files.holds (siteConfig site) = true ∧
        (work.files.holds site = true → after = work)) ∧
    (∀ outcome after, init work = .ok outcome after →
      Started site work.files after.files ∧
        after.printed = work.printed ++ directoryLines site work.files ++ configurationLines site ++
          ["Created " ++ toString (newTemplates site work.files after.files).length ++
            " starter template(s)"] ∧
        (∀ template ∈ newTemplates site work.files after.files,
          after.files.kind? (templateFile site template.1).location =
            some (some template.2.toUTF8)) ∧
        ∀ again, run place (.init path again) after =
          .error (.configExists (siteConfig site)) after) ∧
    (LeadsStraight site work.files →
      ((work.files.kind? (siteConfig site).location).isSome →
        ∃ e after, init work = .error e after ∧
          ∀ there, after.files.kind? there = work.files.kind? there) ∧
      ∀ outcome after, init work = .ok outcome after → ∀ template ∈ Starter.templates,
        after.files.kind? (templateFile site template.1).location =
          some ((work.files.kind? (templateFile site template.1).location).getD
            (some template.2.toUTF8))) := by
  intro site init
  have hsite : site.isAbsolute = true := Path.isAbsolute_resolve hplace path
  -- only the outcome is new in the command, so the rest is about the start of the site
  have hadds : (adding.onPart Work.files).Keeps init :=
    (adds_startSite hsite create).bind fun _ => Discipline.keeps_pure _
  refine ⟨⟨by rfl, nodup_templateFiles site⟩, (hadds.allows hfiles).2, fun hheld => ?_,
    fun hmissing hcreate => ?_, fun p after h => ?_, fun outcome after h => ?_,
    fun hway => ⟨?_, ?_⟩⟩
  · exact run_init_eq_error_iff.mpr (startSite_of_configured hfiles hheld create)
  · subst hcreate
    exact run_init_eq_error_iff.mpr (startSite_of_missing hmissing)
  · exact startSite_eq_configExists (run_init_eq_error_iff.mp h)
  · -- the start is seen from before the directories were made, which have changed none of these
    -- places
    obtain ⟨made, count, hopened, -, hstarted, hcompleted, hprinted⟩ :=
      startSite_ok hsite hfiles (run_init_eq_ok_iff.mp h).1
    have hafter := hadds.holds_of_ok h hfiles
    refine ⟨{ hstarted with fresh := FileTree.kind?_of_adding hopened.adds hstarted.fresh }, ?_,
      fun _ => hcompleted.kind?_of_mem_newTemplates hopened, fun again => ?_⟩
    · rw [hprinted, hcompleted.length_newTemplates hopened]
    · exact run_init_eq_error_iff.mpr (startSite_of_configured hafter hstarted.reached again)
  · intro htaken
    obtain ⟨e, after, h, hsame⟩ := startSite_of_taken hsite hfiles hway htaken create
    exact ⟨e, after, run_init_eq_error_iff.mpr h, hsame⟩
  · exact fun outcome after h => kind?_template hsite hfiles hway (run_init_eq_ok_iff.mp h).1

end

/-! ### Starts in a tree -/

/-- A site whose owner has written a template. -/
def draftedSite : FileTree :=
  .directory [("site", .directory [("blog", .directory [
    ("templates", .directory [("about.html", .file "mine".toUTF8)])])])]

/-- A start leaves a template as it was, writes the other ten, and is not repeated. -/
theorem init_keeps_own_template :
    let place : Workplace := ⟨.ofString "/site", [], ⟨0, 0⟩⟩
    let site := Path.ofString "/site/blog"
    ∃ after, run place (.init (.ofString "blog") false) (.start draftedSite) = .ok .finished after ∧
      after.printed = ["Initializing project in /site/blog",
        "Created config file /site/blog/tofu.yaml", "Created 10 starter template(s)"] ∧
      after.files.kind? ["site", "blog", "templates", "about.html"] = some (some "mine".toUTF8) ∧
      after.files.kind? ["site", "blog", "templates", "index.html"] =
        some (some Starter.home.toUTF8) ∧
      run place (.init (.ofString "blog") true) after =
        .error (.configExists (siteConfig site)) after := by
  intro place site
  have hplace : place.directory.isAbsolute = true := by decide
  have hfiles : (Work.start draftedSite).files.WellFormed :=
    FileTree.wellFormed_of_allNamed (by decide)
  have hruns : passes (run place (.init (.ofString "blog") false)) (.start draftedSite)
      (fun outcome after => decide (outcome = .finished) && decide (after.printed =
        ["Initializing project in /site/blog", "Created config file /site/blog/tofu.yaml",
          "Created 10 starter template(s)"])) = true := by decide +kernel
  obtain ⟨outcome, after, hrun, htest⟩ := passes_eq_true_iff.mp hruns
  rw [Bool.and_eq_true, decide_eq_true_iff, decide_eq_true_iff] at htest
  obtain ⟨rfl, hprinted⟩ := htest
  obtain ⟨-, hstays, -, -, -, hdone, hstraight⟩ :=
    init_adds_what_is_missing hplace (.ofString "blog") false hfiles
  have hkept := hstays ["site", "blog", "templates", "about.html"] (by rfl)
  rw [stateAfter_of_ok hrun] at hkept
  have hhome := (hstraight (.inr (by decide +kernel))).2 _ _ hrun
    (.ofString "index.html", Starter.home) (List.mem_of_getElem? (i := 3) rfl)
  exact ⟨after, hrun, hprinted, hkept, hhome, (hdone _ _ hrun).2.2.2 true⟩

/-- A site with a configuration. -/
def configuredSite : FileTree :=
  .directory [("site", .directory [("tofu.yaml", .file "site: \x7b\x7d\n".toUTF8)])]

/-- A start is refused for the configuration that is there, but not without a change: the path goes
through a directory that is missing, so it seems that there is nothing, and when that directory has
been made, the path leads to the site that was there. -/
theorem init_makes_directory_beside_configuration :
    let place : Workplace := ⟨.ofString "/site", [], ⟨0, 0⟩⟩
    let site := Path.ofString "/site/nope/.."
    configuredSite.WellFormed ∧
      (siteConfig site).location = ["site", "tofu.yaml"] ∧
      (configuredSite.kind? ["site", "tofu.yaml"]).isSome ∧
      configuredSite.kind? ["site", "nope"] = none ∧
      ∃ after, run place (.init (.ofString "nope/..") true) (.start configuredSite) =
          .error (.configExists (siteConfig site)) after ∧
        after.files.kind? ["site", "nope"] = some none := by
  intro place site
  have hfails : fails (run place (.init (.ofString "nope/..") true)) (.start configuredSite)
      (fun error => decide (error = .configExists (siteConfig site))) = true := by decide +kernel
  have hmade : (stateAfter (run place (.init (.ofString "nope/..") true))
      (.start configuredSite)).files.kind? ["site", "nope"] = some none := by decide +kernel
  obtain ⟨error, after, hrun, htest⟩ := fails_eq_true_iff.mp hfails
  rw [decide_eq_true_iff] at htest
  subst htest
  rw [stateAfter_of_error hrun] at hmade
  exact ⟨FileTree.wellFormed_of_allNamed (by decide), by decide +kernel, by decide +kernel,
    by decide +kernel, after, hrun, hmade⟩

end StaticSite.Command
