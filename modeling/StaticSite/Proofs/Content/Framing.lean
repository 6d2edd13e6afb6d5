import Mathlib.Data.Bool.AllAny
import StaticSite.Content.FrontMatter
import StaticSite.Proofs.Text.Blank
import StaticSite.Proofs.Text.Split
/-!
# StaticSite.Proofs.Content.Framing

Where front matter starts and ends. The text is searched for fences and is not read line by line,
yet **front matter ends at the first line that starts with a fence** (`split_framed`): a fence after
a line feed cannot start inside of the YAML text and go on beyond it. A text that is not framed is
all body (`split_unframed`), and whatever a text is like, **its body is an end of it**
(`parse_framed`).
-/

set_option autoImplicit false

namespace StaticSite.FrontMatter

/-- Whether no line of a text starts with a fence. -/
def Unfenced (s : List Char) : Prop :=
  ∀ line ∈ Text.splitAtEach (· == '\n') s, ¬ fence <+: line

instance : DecidablePred Unfenced := fun s =>
  inferInstanceAs (Decidable (∀ line ∈ Text.splitAtEach (· == '\n') s, _))

/-- Whether a YAML text is a mapping with names that JSON can hold, and these are its names and
values. -/
def IsMapping (yaml : List Char) (fields : Fields Json) : Prop :=
  (Yaml.parse? yaml).bind Yaml.toJson? = some (.object fields)

theorem ofYaml_of_isMapping {yaml : List Char} {fields : Fields Json} (h : IsMapping yaml fields) :
    ofYaml yaml = fields := by
  unfold IsMapping at h
  unfold ofYaml
  rw [h]

theorem ofYaml_of_not_isMapping {yaml : List Char} (h : ∀ fields, ¬ IsMapping yaml fields) :
    ofYaml yaml = [] := by
  unfold ofYaml
  split
  · rename_i fields hfields
    exact absurd hfields (h fields)
  · rfl

/-! ### The closing fence

The program looks for a line feed with a fence behind it. Nothing of the kind stands in YAML without
a fenced line, nor across its end: the search cannot start inside of the YAML and end outside. -/

/-- A fence that starts a text starts its first line. -/
theorem fence_prefix_line {s : List Char} (h : fence <+: s) :
    ∃ line ∈ Text.splitAtEach (· == '\n') s, fence <+: line := by
  obtain ⟨rest, rfl⟩ := h
  obtain ⟨piece, pieces, hrest⟩ := Text.exists_splitAtEach_eq_cons (· == '\n') rest
  rw [Text.splitAtEach_append (List.all_iff_forall_prop.mp (by decide)) hrest]
  exact ⟨_, List.mem_cons_self, List.prefix_append fence piece⟩

/-- What follows a line feed starts a line. -/
theorem Unfenced.not_prefix {yaml before after : List Char} (h : Unfenced yaml)
    (hyaml : '\n' :: yaml = before ++ '\n' :: after) : ¬ fence <+: after := by
  intro hfence
  obtain ⟨line, hline, hstart⟩ := fence_prefix_line hfence
  cases before with
  | nil =>
    obtain rfl : yaml = after := (List.cons.inj hyaml).2
    exact h line hline hstart
  | cons c before =>
    obtain rfl : yaml = before ++ '\n' :: after := (List.cons.inj hyaml).2
    refine h line ?_ hstart
    rw [Text.splitAtEach_append_cons (by decide)]
    exact List.mem_append_right _ hline

/-- Front matter ends at the first line after it that starts with a fence. -/
theorem cutAt?_closing {yaml : List Char} (h : Unfenced yaml) (rest : List Char) :
    Text.cutAt? ('\n' :: fence) ('\n' :: yaml ++ (('\n' :: fence) ++ rest)) =
      some ('\n' :: yaml, rest) := by
  refine Text.cutAt?_first fun inner hinner hne hword => ?_
  obtain ⟨before, hbefore⟩ := hinner
  obtain ⟨c, after, rfl⟩ := List.exists_cons_of_ne_nil hne
  rw [List.cons_append, List.cons_prefix_cons] at hword
  obtain ⟨rfl, hfence⟩ := hword
  exact h.not_prefix hbefore.symm (Text.prefix_of_prefix_append_cons (by decide) hfence)

/-- The line of the closing fence ends at the first line feed. -/
theorem cutAt?_lineFeed {tail : List Char} (h : '\n' ∉ tail) (rest : List Char) :
    Text.cutAt? ['\n'] (tail ++ '\n' :: rest) = some (tail, rest) := by
  refine Text.cutAt?_first fun inner hinner hne hword => ?_
  obtain ⟨c, after, rfl⟩ := List.exists_cons_of_ne_nil hne
  rw [List.cons_append, List.cons_prefix_cons] at hword
  exact h (hword.1 ▸ hinner.subset List.mem_cons_self)

/-! ### Framed texts -/

/-- A text of white space, an opening fence, YAML, a closing fence with more on its line, and a
body. -/
def framed (blanks yaml tail body : List Char) : List Char :=
  blanks ++ "---\n".toList ++ yaml ++ "\n---".toList ++ tail ++ "\n".toList ++ body

theorem split_framed {blanks yaml tail : List Char} (hblanks : Blank blanks) (hyaml : Unfenced yaml)
    (htail : '\n' ∉ tail) (body : List Char) :
    split (framed blanks yaml tail body) =
      (some (yaml.dropWhile isLineEnd), body.dropWhile isLineEnd) := by
  have htext : framed blanks yaml tail body =
      blanks ++ (fence ++ ('\n' :: yaml ++ (('\n' :: fence) ++ (tail ++ '\n' :: body)))) := by
    unfold framed fence
    simp
  have htrim : Text.trimStart (framed blanks yaml tail body) =
      fence ++ ('\n' :: yaml ++ (('\n' :: fence) ++ (tail ++ '\n' :: body))) := by
    rw [htext]
    refine trimStart_exact hblanks fun c hc => ?_
    obtain rfl : '-' = c := Option.some.inj hc
    decide
  unfold split
  dsimp only
  rw [htrim, Text.dropStart?_eq_some_iff.mpr rfl]
  dsimp only
  rw [cutAt?_closing hyaml]
  dsimp only
  rw [cutAt?_lineFeed htail]
  rfl

/-- A text without a fence at its start or after a line feed later on is all body. -/
theorem split_unframed {text : List Char}
    (h : ¬ fence <+: Text.trimStart text ∨
      ¬ '\n' :: fence <:+: (Text.trimStart text).drop fence.length) :
    split text = (none, Text.trimStart text) := by
  unfold split
  dsimp only
  cases hdrop : Text.dropStart? fence (Text.trimStart text) with
  | none => rfl
  | some inner =>
    have hinner := Text.dropStart?_eq_some_iff.mp hdrop
    rw [hinner, List.drop_left] at h
    have hclosing := h.resolve_left (not_not_intro (List.prefix_append fence inner))
    dsimp only
    rw [Text.cutAt?_eq_none_iff.mpr hclosing]

theorem split_suffix (text : List Char) : (split text).2 <:+ text := by
  have htrim := trimStart_suffix text
  unfold split
  dsimp only
  split
  · exact htrim
  · rename_i inner hinner
    split
    · exact htrim
    · rename_i yaml rest hcut
      have hrest : rest <:+ text := by
        refine List.IsSuffix.trans ⟨fence ++ (yaml ++ '\n' :: fence), ?_⟩ htrim
        rw [Text.dropStart?_eq_some_iff.mp hinner, Text.cutAt?_eq_some hcut]
        simp
      dsimp only
      split
      · rename_i line body hline
        refine ((List.dropWhile_suffix isLineEnd).trans ?_).trans hrest
        exact ⟨line ++ ['\n'], (Text.cutAt?_eq_some hline).symm⟩
      · exact List.nil_suffix

/-- **Framed front matter is what stands between the fences**, and the body is what follows the line
of the closing fence, both without the empty lines in front. A text that is not framed so is body
without front matter. In every case the body is an end of the text. -/
theorem parse_framed :
    (∀ blanks yaml tail body : List Char, Blank blanks → Unfenced yaml → '\n' ∉ tail →
      let content := parse (framed blanks yaml tail body)
      content.2 = body.dropWhile isLineEnd ∧
      (∀ fields, IsMapping (yaml.dropWhile isLineEnd) fields → content.1 = fields) ∧
      ((∀ fields, ¬ IsMapping (yaml.dropWhile isLineEnd) fields) → content.1 = [])) ∧
    (∀ text : List Char,
      (¬ fence <+: Text.trimStart text ∨
        ¬ '\n' :: fence <:+: (Text.trimStart text).drop fence.length) →
      parse text = ([], Text.trimStart text)) ∧
    ∀ text : List Char, (parse text).2 <:+ text := by
  refine ⟨fun blanks yaml tail body hblanks hyaml htail => ?_, fun text htext => ?_, split_suffix⟩
  · intro content
    have hcontent : content = (ofYaml (yaml.dropWhile isLineEnd), body.dropWhile isLineEnd) := by
      change parse (framed blanks yaml tail body) = _
      unfold parse
      rw [split_framed hblanks hyaml htail]
      rfl
    rw [hcontent]
    exact ⟨rfl, fun fields => ofYaml_of_isMapping, ofYaml_of_not_isMapping⟩
  · unfold parse
    rw [split_unframed htext]
    rfl

/-- The title, if a value is an object with a title that is text and nothing else. -/
def titleOnly? : Json → Option String
  | .object [(name, .string title)] => if name = "title" then some title else none
  | _ => none

theorem eq_of_titleOnly? {json : Json} {title : String} (h : titleOnly? json = some title) :
    json = .object [("title", .string title)] := by
  unfold titleOnly? at h
  split at h
  · split at h
    · rename_i hname
      cases h
      rw [hname]
    · cases h
  · cases h

/-- YAML with an empty line in front and dashes at its end, in a text with white space in front,
more on the line of the closing fence and a line of dashes in its body. -/
theorem parse_framed_dashes :
    let yaml := "\r\ntitle: A --\n  -- B\n  --".toList
    let text := framed " \n\t".toList yaml "- end".toList "\r\n\nbody\n---\n".toList
    (Blank " \n\t".toList ∧ Unfenced yaml ∧ '\n' ∉ "- end".toList ∧
      IsMapping (yaml.dropWhile isLineEnd) [("title", .string "A -- -- B --")]) ∧
    parse text = ([("title", .string "A -- -- B --")], "body\n---\n".toList) ∧
    parse " text\n---\n".toList = ([], "text\n---\n".toList) := by
  intro yaml text
  have hblanks : Blank " \n\t".toList := List.all_eq_true.mp (by decide)
  have hyaml : Unfenced yaml := by decide
  have htail : '\n' ∉ "- end".toList := by decide
  have htitle : ((Yaml.parse? (yaml.dropWhile isLineEnd)).bind Yaml.toJson?).bind titleOnly? =
      some "A -- -- B --" := by
    decide +kernel
  obtain ⟨json, hjson, honly⟩ := Option.bind_eq_some_iff.mp htitle
  have hmapping : IsMapping (yaml.dropWhile isLineEnd) [("title", .string "A -- -- B --")] :=
    hjson.trans (congrArg some (eq_of_titleOnly? honly))
  obtain ⟨hbody, hfields, -⟩ := parse_framed.1 _ _ _ "\r\n\nbody\n---\n".toList hblanks hyaml
    htail
  refine ⟨⟨hblanks, hyaml, htail, hmapping⟩, Prod.ext (hfields _ hmapping) hbody, ?_⟩
  exact parse_framed.2.1 _ (.inl (by decide))

end StaticSite.FrontMatter
