import Mathlib.Data.List.Basic
import StaticSite.Proofs.Slug
import StaticSite.Proofs.Text.Case
import StaticSite.Proofs.Text.Split
/-!
# StaticSite.Proofs.Slug.Words

What a slug is made of. The scan goes through a text once and holds back each dash until it knows
that a word follows. Its result is **the words of the text in lower case, with a dash between two**
(`slugify_joins_words`), where a word is a longest run of small letters and digits.

Everything else follows from two equations: `words_append_cons`, by which words are found on either
side of a separator on their own, and `words_join`, by which the words come back from a slug. So
slugs are their own slugs, and neither the case of ASCII letters nor what stands around the first
and the last word counts.
-/

set_option autoImplicit false

namespace StaticSite

namespace Slug

theorem bounds_of_isKept {c : Char} (h : isKept c = true) :
    c.toNat ≤ 57 ∨ 97 ≤ c.toNat ∧ c.toNat ≤ 122 := by
  unfold isKept at h
  simp only [Bool.or_eq_true, Bool.and_eq_true, decide_eq_true_eq] at h
  rcases h with ⟨hfirst, hlast⟩ | ⟨-, hlast⟩
  · exact .inr ⟨hfirst, hlast⟩
  · exact .inl hlast

/-! ### Words

Words are defined without the scan, by splitting and leaving out what is empty. This is the
specification, and the laws of words are shown for it. -/

/-- The words of a text: what stands between characters that a slug does not keep. -/
def words (s : List Char) : List (List Char) :=
  (Text.splitAtEach (fun c => !isKept c) s).filter fun piece => !piece.isEmpty

/-- Whether a text is a word. -/
def IsWord (s : List Char) : Prop := s ≠ [] ∧ ∀ c ∈ s, isKept c = true

theorem isWord_of_mem_words {s word : List Char} (h : word ∈ words s) : IsWord word := by
  obtain ⟨hpiece, hne⟩ := List.mem_filter.mp h
  refine ⟨fun hnil => ?_, fun c hc => ?_⟩
  · rw [hnil] at hne
    cases hne
  · simpa using Text.not_separator_of_mem_splitAtEach hpiece hc

@[simp]
theorem words_nil : words [] = [] := rfl

/-- A character that is not kept ends one word and starts another. -/
theorem words_append_cons {c : Char} (hc : isKept c = false) (s rest : List Char) :
    words (s ++ c :: rest) = words s ++ words rest := by
  unfold words
  rw [Text.splitAtEach_append_cons (by rw [hc]; rfl), List.filter_append]

theorem words_cons {c : Char} (hc : isKept c = false) (s : List Char) :
    words (c :: s) = words s := by
  simpa using words_append_cons hc [] s

theorem words_append_left {before : List Char} (h : ∀ c ∈ before, isKept c = false)
    (s : List Char) : words (before ++ s) = words s := by
  induction before with
  | nil => rfl
  | cons c before ih =>
    rw [List.cons_append, words_cons (h c List.mem_cons_self)]
    exact ih fun d hd => h d (List.mem_cons_of_mem c hd)

/-- Words are found on either side of a gap on their own. -/
theorem words_append_gap {gap : List Char} (hne : gap ≠ []) (h : ∀ c ∈ gap, isKept c = false)
    (s rest : List Char) : words (s ++ (gap ++ rest)) = words s ++ words rest := by
  obtain ⟨c, gap, rfl⟩ := List.exists_cons_of_ne_nil hne
  rw [List.cons_append, words_append_cons (h c List.mem_cons_self),
    words_append_left fun d hd => h d (List.mem_cons_of_mem c hd)]

theorem words_append_right {after : List Char} (h : ∀ c ∈ after, isKept c = false)
    (s : List Char) : words (s ++ after) = words s := by
  by_cases hne : after = []
  · rw [hne, List.append_nil]
  · simpa using words_append_gap hne h s []

/-- The words of a full lower case are those of the lower case: what either has of other
characters separates. -/
theorem words_of_isLowerCase {s lowered : List Char} (h : Text.IsLowerCase s lowered) :
    words lowered = words (Text.lower s) := by
  -- what has been read belongs to the first word that is still to be read
  suffices hall : ∀ before, words (before ++ lowered) = words (before ++ Text.lower s) from hall []
  have hgap : ∀ d : Char, 128 ≤ d.toNat → isKept d = false := by
    intro d hd
    refine Bool.eq_false_iff.mpr fun hkept => ?_
    have hbounds := bounds_of_isKept hkept
    omega
  induction h with
  | nil => exact fun _ => rfl
  | @cons c piece s lowered hpiece _ ih =>
    intro before
    rw [Text.lower_cons]
    unfold Text.IsLowerOf at hpiece
    split at hpiece
    · rename_i hforeign
      have hc : ∀ d ∈ [c], isKept d = false := fun d hd =>
        hgap d (List.mem_singleton.mp hd ▸ hforeign.1)
      rw [words_append_gap hpiece.1 fun d hd => hgap d (hpiece.2 d hd),
        Text.lowerChar_of_isForeign hforeign, words_append_gap (List.cons_ne_nil c []) hc]
      exact congrArg _ (ih [])
    · rw [hpiece, ← List.append_assoc, ← List.append_assoc]
      exact ih _

/-! ### The scan

The scan knows whether a word has been seen and whether a dash is due. Once it has started, it goes
on with the first piece at once, or puts a dash in front of it; both are shown together, as each is
needed for the other. -/

/-- Words with a dash before each. -/
def dashed (words : List (List Char)) : List Char := words.flatMap fun word => '-' :: word

theorem join_cons (word : List Char) (rest : List (List Char)) :
    Text.join ['-'] (word :: rest) = word ++ dashed rest := by
  induction rest generalizing word with
  | nil => exact (List.append_nil word).symm
  | cons next rest ih =>
    unfold Text.join
    rw [ih next, List.append_assoc]
    rfl

/-- A character that is kept belongs to the first piece. -/
theorem splitAtEach_cons_kept {c : Char} {rest piece : List Char} {pieces : List (List Char)}
    (hc : isKept c = true) (h : Text.splitAtEach (fun c => !isKept c) rest = piece :: pieces) :
    Text.splitAtEach (fun c => !isKept c) (c :: rest) = (c :: piece) :: pieces := by
  have hstart : ∀ d ∈ [c], (!isKept d) = false := by
    intro d hd
    rw [List.mem_singleton.mp hd, hc]
    rfl
  exact Text.splitAtEach_append hstart h

theorem splitAtEach_cons_skipped {c : Char} (hc : isKept c = false) (rest : List Char) :
    Text.splitAtEach (fun c => !isKept c) (c :: rest) =
      [] :: Text.splitAtEach (fun c => !isKept c) rest :=
  Text.splitAtEach_append_cons (by rw [hc]; rfl) [] rest

/-- What the scan of a text adds to a slug that has been started. If nothing is skipped yet, the
first piece goes on with the word before it. -/
theorem scan_started {s piece : List Char} {pieces : List (List Char)}
    (h : Text.splitAtEach (fun c => !isKept c) s = piece :: pieces) :
    scan true false s = piece ++ dashed (pieces.filter fun piece => !piece.isEmpty) ∧
      scan true true s = dashed ((piece :: pieces).filter fun piece => !piece.isEmpty) := by
  induction s generalizing piece pieces with
  | nil =>
    cases h
    exact ⟨rfl, rfl⟩
  | cons c rest ih =>
    obtain ⟨first, others, hrest⟩ :=
      Text.exists_splitAtEach_eq_cons (fun c => !isKept c) rest
    obtain ⟨hgoesOn, hskipped⟩ := ih hrest
    cases hc : isKept c with
    -- a character that is kept goes on with the word, after the dash if one is due
    | true =>
      rw [splitAtEach_cons_kept hc hrest] at h
      cases h
      constructor
      · unfold scan
        rw [if_pos hc, hgoesOn]
        rfl
      · unfold scan
        rw [if_pos hc, hgoesOn]
        rfl
    -- a character that is not kept ends the first piece, which may have been empty
    | false =>
      rw [splitAtEach_cons_skipped hc, hrest] at h
      cases h
      have hnot : ¬ isKept c = true := by rw [hc]; decide
      constructor
      · unfold scan
        rw [if_neg hnot, hskipped]
        rfl
      · unfold scan
        rw [if_neg hnot, hskipped]
        rfl

/-- The scan of a text joins its words. -/
theorem scan_eq_join (pending : Bool) (s : List Char) :
    scan false pending s = Text.join ['-'] (words s) := by
  induction s generalizing pending with
  | nil => rfl
  | cons c rest ih =>
    unfold scan
    cases hc : isKept c with
    | true =>
      obtain ⟨first, others, hrest⟩ :=
        Text.exists_splitAtEach_eq_cons (fun c => !isKept c) rest
      have hwords : words (c :: rest) =
          (c :: first) :: others.filter fun piece => !piece.isEmpty := by
        unfold words
        rw [splitAtEach_cons_kept hc hrest]
        rfl
      rw [hwords, join_cons, (scan_started hrest).1]
      rfl
    | false =>
      rw [words_cons hc]
      exact ih true

/-! ### Slugs

A slug is determined by the words of the lower case. Whatever leaves these as they are leaves the
slug as it is. -/

/-- Whether a text has the form of a slug: nothing at all, or words of small letters and digits with
one dash between two. -/
def IsSlug (s : List Char) : Prop :=
  s = [] ∨ ∃ word rest, IsWord word ∧ (∀ other ∈ rest, IsWord other) ∧ s = word ++ dashed rest

theorem isSlug_join {all : List (List Char)} (h : ∀ word ∈ all, IsWord word) :
    IsSlug (Text.join ['-'] all) := by
  cases all with
  | nil => exact .inl rfl
  | cons word rest =>
    exact .inr ⟨word, rest, h word List.mem_cons_self,
      fun other hother => h other (List.mem_cons_of_mem word hother), join_cons word rest⟩

/-- Words come back from the slug that they are joined to. -/
theorem words_join {all : List (List Char)} (h : ∀ word ∈ all, IsWord word) :
    words (Text.join ['-'] all) = all := by
  by_cases hne : all = []
  · rw [hne]
    rfl
  · unfold words
    have hkept : ∀ word ∈ all, ∀ c ∈ word, (!isKept c) = false := by
      intro word hword c hc
      rw [(h word hword).2 c hc]
      rfl
    rw [Text.splitAtEach_join (by decide) hne hkept]
    exact List.filter_eq_self.mpr fun word hword => by simpa using (h word hword).1

theorem toList_slugify (name : String) :
    (slugify name).toList = Text.join ['-'] (words (Text.lower name.toList)) := by
  unfold slugify ofChars
  rw [String.toList_ofList, scan_eq_join]

/-- A slug is in lower case. -/
theorem lower_slugify (name : String) :
    Text.lower (slugify name).toList = (slugify name).toList := by
  have hlow : ∀ c ∈ (slugify name).toList, Text.lowerChar c = [c] := by
    intro c hc
    have hrange : c.toNat ≤ 57 ∨ 97 ≤ c.toNat ∧ c.toNat ≤ 122 := by
      rcases of_mem_slugify hc with hkept | rfl
      · exact bounds_of_isKept hkept
      · decide
    rw [Text.lowerChar_eq_toLower, Text.toLower_of_not_isUpper]
    · rintro ⟨hfirst, hlast⟩
      have hfirst : 65 ≤ c.toNat := hfirst
      have hlast : c.toNat ≤ 90 := hlast
      omega
    · rintro rfl
      exact absurd hrange (by decide)
    · rintro rfl
      exact absurd hrange (by decide)
  unfold Text.lower
  rw [List.flatMap_congr hlow]
  exact List.flatMap_singleton' _

theorem slugify_eq_of_words {name other : String}
    (h : words (Text.lower name.toList) = words (Text.lower other.toList)) :
    slugify name = slugify other := by
  rw [← String.toList_inj, toList_slugify, toList_slugify, h]

/-- Whether nothing of a character stays in a slug: it is no letter and no digit of ASCII, and none
of the two letters beyond whose lower case holds one. -/
def Vanishes (c : Char) : Prop := c.isAlphanum = false ∧ c ≠ '\u212A' ∧ c ≠ '\u0130'

instance : DecidablePred Vanishes := fun _ => inferInstanceAs (Decidable (_ ∧ _ ∧ _))

theorem isAlphanum_of_isUpper {c : Char} (h : 'A' ≤ c ∧ c ≤ 'Z') : c.isAlphanum = true := by
  unfold Char.isAlphanum Char.isAlpha Char.isUpper
  simp only [Bool.or_eq_true, decide_eq_true_eq]
  exact .inl (.inl h)

theorem isAlphanum_of_isKept {c : Char} (h : isKept c = true) : c.isAlphanum = true := by
  unfold isKept at h
  unfold Char.isAlphanum Char.isAlpha Char.isLower Char.isDigit
  simp only [Bool.or_eq_true, Bool.and_eq_true, decide_eq_true_eq] at h ⊢
  rcases h with hletter | hdigit
  · exact .inl (.inr hletter)
  · exact .inr hdigit

theorem not_isKept_of_vanishes {c d : Char} (h : Vanishes c) (hd : d ∈ Text.lowerChar c) :
    isKept d = false := by
  have hupper : ¬ ('A' ≤ c ∧ c ≤ 'Z') := fun hupper =>
    Bool.eq_false_iff.mp h.1 (isAlphanum_of_isUpper hupper)
  rw [Text.lowerChar_eq_toLower h.2.1 h.2.2, Text.toLower_of_not_isUpper hupper,
    List.mem_singleton] at hd
  rw [hd]
  exact Bool.eq_false_iff.mpr fun hkept => Bool.eq_false_iff.mp h.1 (isAlphanum_of_isKept hkept)

theorem not_isKept_of_mem_lower {around : List Char} (h : ∀ c ∈ around, Vanishes c) :
    ∀ d ∈ Text.lower around, isKept d = false := by
  intro d hd
  obtain ⟨c, hc, hdc⟩ := List.mem_flatMap.mp hd
  exact not_isKept_of_vanishes (h c hc) hdc

end Slug

open Slug

/-- A slug consists of the words of the name in lower case, in whatever way a full lower-casing puts
the characters beyond ASCII, with a dash between two. So it is empty or has the form of words with
dashes between them, it is its own slug, and it changes neither with the case of ASCII letters nor
with characters around the name that are no letters and no digits. -/
theorem slugify_joins_words (name : String) :
    (slugify name).toList = Text.join ['-'] (words (Text.lower name.toList)) ∧
    (∀ lowered, Text.IsLowerCase name.toList lowered →
      (slugify name).toList = Text.join ['-'] (words lowered)) ∧
    IsSlug (slugify name).toList ∧
    slugify (slugify name) = slugify name ∧
    (∀ other : String, Text.equalIgnoringCase other.toList name.toList = true →
      slugify other = slugify name) ∧
    (∀ before after : String, (∀ c ∈ before.toList, Vanishes c) → (∀ c ∈ after.toList, Vanishes c) →
      slugify (before ++ name ++ after) = slugify name) := by
  refine ⟨toList_slugify name, fun lowered hlowered => ?_, ?_, ?_, fun other hother => ?_,
    fun before after hbefore hafter => ?_⟩
  · rw [toList_slugify, words_of_isLowerCase hlowered]
  · rw [toList_slugify]
    exact isSlug_join fun word => isWord_of_mem_words
  · rw [← String.toList_inj, toList_slugify (slugify name), lower_slugify, toList_slugify name,
      words_join fun word => isWord_of_mem_words]
  · exact slugify_eq_of_words (congrArg words (Text.lower_congr hother))
  · refine slugify_eq_of_words ?_
    rw [String.toList_append, String.toList_append, Text.lower_append, Text.lower_append,
      words_append_right (not_isKept_of_mem_lower hafter),
      words_append_left (not_isKept_of_mem_lower hbefore)]

/-- The words of a name with a capital that is not ASCII. -/
theorem slugify_joins_words_elan :
    (Text.IsLowerCase "Élan VITAL".toList "élan vital".toList ∧
      Text.equalIgnoringCase "ÉLAN vital".toList "Élan VITAL".toList = true ∧
      (∀ c ∈ "« ".toList, Vanishes c) ∧ ∀ c ∈ " »!".toList, Vanishes c) ∧
    (slugify "Élan VITAL").toList = Text.join ['-'] (words "élan vital".toList) ∧
    slugify "ÉLAN vital" = slugify "Élan VITAL" ∧
    slugify ("« " ++ "Élan VITAL" ++ " »!") = slugify "Élan VITAL" ∧
    slugify "Élan VITAL" = "lan-vital" := by
  have hfirst : Text.IsLowerOf 'É' ['é'] :=
    ⟨List.cons_ne_nil _ _, List.all_iff_forall_prop.mp (by decide)⟩
  have hlowered : Text.IsLowerCase "Élan VITAL".toList "élan vital".toList :=
    .cons hfirst (Text.isLowerCase_lower "lan VITAL".toList)
  have hother : Text.equalIgnoringCase "ÉLAN vital".toList "Élan VITAL".toList = true := by decide
  have hbefore : ∀ c ∈ "« ".toList, Vanishes c := List.all_iff_forall_prop.mp (by decide)
  have hafter : ∀ c ∈ " »!".toList, Vanishes c := List.all_iff_forall_prop.mp (by decide)
  obtain ⟨-, hjoins, -, -, hcase, haround⟩ := slugify_joins_words "Élan VITAL"
  exact ⟨⟨hlowered, hother, hbefore, hafter⟩, hjoins _ hlowered, hcase _ hother,
    haround _ _ hbefore hafter, by decide⟩

end StaticSite
