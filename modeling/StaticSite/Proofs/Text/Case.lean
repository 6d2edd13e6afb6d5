import Mathlib.Data.Bool.AllAny
import StaticSite.Text.Case
/-!
# StaticSite.Proofs.Text.Case

What lower case shows. `Text.lower` leaves most capitals beyond ASCII as they are. `IsLowerCase`
says what a full lower-casing may put in their places, and **no full lower-casing tells more about
ASCII characters than `lower`** (`IsLowerCase.eq_or`). Comparing lower case with a word is not
comparing up to the case of ASCII letters, since the Kelvin sign counts as a `k`; for a word of
other letters it is (`lower_eq_iff`).
-/

set_option autoImplicit false

namespace StaticSite.Text

/-! ### Characters

Two characters beyond ASCII have a lower case with an ASCII letter in it: the Kelvin sign and the
capital I with a dot. All others are told from ASCII letters by their numbers. -/

theorem toNat_toLower {c : Char} (h : 'A' ≤ c ∧ c ≤ 'Z') : c.toLower.toNat = c.toNat + 32 := by
  have hbound : c.toNat ≤ 90 := h.2
  unfold Char.toLower
  rw [dif_pos ⟨h.1, h.2⟩]
  change (c.val + 32).toNat = c.toNat + 32
  rw [UInt32.toNat_add]
  exact Nat.mod_eq_of_lt (by change c.toNat + 32 < 4294967296; omega)

theorem toLower_of_not_isUpper {c : Char} (h : ¬ ('A' ≤ c ∧ c ≤ 'Z')) : c.toLower = c := by
  unfold Char.toLower
  exact dif_neg h

/-- A character has the small letter of a capital if it is the one or the other. -/
theorem toLower_eq_iff {c : Char} (capital : Char) (h : 'A' ≤ capital ∧ capital ≤ 'Z') :
    c.toLower = capital.toLower ↔ c = capital.toLower ∨ c = capital := by
  by_cases hc : 'A' ≤ c ∧ c ≤ 'Z'
  · have hsame : c.toLower = capital.toLower ↔ c = capital := by
      rw [← Char.toNat_inj, toNat_toLower hc, toNat_toLower h, ← Char.toNat_inj]
      omega
    rw [hsame]
    refine (or_iff_right fun heq => ?_).symm
    have hlast : c.toNat ≤ 90 := hc.2
    have hfirst : 65 ≤ capital.toNat := h.1
    rw [heq, toNat_toLower h] at hlast
    omega
  · rw [toLower_of_not_isUpper hc]
    refine (or_iff_left fun heq => ?_).symm
    rw [heq] at hc
    exact hc h

/-- Apart from two characters, the lower case is that of ASCII letters. -/
theorem lowerChar_eq_toLower {c : Char} (hkelvin : c ≠ '\u212A') (hdotted : c ≠ '\u0130') :
    lowerChar c = [c.toLower] := by
  unfold lowerChar
  by_cases hupper : 'A' ≤ c ∧ c ≤ 'Z'
  · rw [if_pos hupper, ← toNat_toLower hupper, Char.ofNat_toNat]
  · rw [if_neg hupper, if_neg hkelvin, if_neg hdotted, toLower_of_not_isUpper hupper]

/-- The lower case does not depend on the case of ASCII letters. -/
theorem lowerChar_toLower (c : Char) : lowerChar c.toLower = lowerChar c := by
  by_cases hupper : 'A' ≤ c ∧ c ≤ 'Z'
  · have hlow : 97 ≤ c.toLower.toNat ∧ c.toLower.toNat ≤ 122 := by
      have hfirst : 65 ≤ c.toNat := hupper.1
      have hlast : c.toNat ≤ 90 := hupper.2
      rw [toNat_toLower hupper]
      omega
    have hplain : ∀ d : Char, d.toNat ≤ 122 → d ≠ '\u212A' ∧ d ≠ '\u0130' := by
      intro d hd
      constructor
      · rintro rfl
        exact absurd hd (by decide)
      · rintro rfl
        exact absurd hd (by decide)
    have hstays : c.toLower.toLower = c.toLower := by
      refine toLower_of_not_isUpper fun h => ?_
      have hlast : c.toLower.toNat ≤ 90 := h.2
      omega
    have hcapital := hplain c (Nat.le_trans hupper.2 (by decide))
    have hsmall := hplain c.toLower hlow.2
    rw [lowerChar_eq_toLower hsmall.1 hsmall.2, lowerChar_eq_toLower hcapital.1 hcapital.2, hstays]
  · rw [toLower_of_not_isUpper hupper]

/-! ### Texts -/

theorem lower_cons (c : Char) (s : List Char) : lower (c :: s) = lowerChar c ++ lower s :=
  List.flatMap_cons

theorem lower_append (s t : List Char) : lower (s ++ t) = lower s ++ lower t :=
  List.flatMap_append

theorem lower_map_toLower (s : List Char) : lower (s.map Char.toLower) = lower s := by
  unfold lower
  rw [List.flatMap_map, funext lowerChar_toLower]

/-- Texts that differ in the case of ASCII letters have one lower case. -/
theorem lower_congr {s t : List Char} (h : equalIgnoringCase s t = true) : lower s = lower t := by
  rw [← lower_map_toLower s, ← lower_map_toLower t, eq_of_beq h]

/-- Whether a character is a small ASCII letter other than `k`, which is also the lower case of the
Kelvin sign. -/
def IsPlainSmall (c : Char) : Prop := 'a' ≤ c ∧ c ≤ 'z' ∧ c ≠ 'k'

instance : DecidablePred IsPlainSmall := fun _ => inferInstanceAs (Decidable (_ ∧ _ ∧ _))

theorem IsPlainSmall.toLower {c : Char} (h : IsPlainSmall c) : c.toLower = c := by
  refine toLower_of_not_isUpper fun hupper => ?_
  have hfirst : 97 ≤ c.toNat := h.1
  have hlast : c.toNat ≤ 90 := hupper.2
  omega

/-- For a word without a `k`, having it for lower case is being it up to the case of ASCII
letters. -/
theorem lower_eq_iff {s word : List Char} (hword : ∀ c ∈ word, IsPlainSmall c) :
    lower s = word ↔ equalIgnoringCase s word = true := by
  have hsmall : word.map Char.toLower = word :=
    (List.map_congr_left fun c hc => (hword c hc).toLower).trans (List.map_id word)
  unfold equalIgnoringCase
  rw [beq_iff_eq, hsmall]
  clear hsmall
  induction s generalizing word with
  | nil => rfl
  | cons c s ih =>
    rw [lower_cons, List.map_cons]
    -- the two characters of an odd lower case are in no such word, in neither reading
    by_cases hkelvin : c = '\u212A'
    · subst hkelvin
      refine iff_of_false (fun h => ?_) fun h => ?_
      · exact absurd (hword 'k' (h ▸ List.mem_cons_self)) (by decide)
      · exact absurd (hword '\u212A' (h ▸ List.mem_cons_self)) (by decide)
    by_cases hdotted : c = '\u0130'
    · subst hdotted
      refine iff_of_false (fun h => ?_) fun h => ?_
      · exact absurd (hword '\u0307' (h ▸ List.mem_cons_of_mem _ List.mem_cons_self)) (by decide)
      · exact absurd (hword '\u0130' (h ▸ List.mem_cons_self)) (by decide)
    rw [lowerChar_eq_toLower hkelvin hdotted, List.singleton_append]
    cases word with
    | nil => simp
    | cons d word =>
      rw [List.cons.injEq, List.cons.injEq]
      exact and_congr_right fun _ => ih fun e he => hword e (List.mem_cons_of_mem d he)

/-! ### Full lower-casing

The relation leaves open what becomes of a character that has no ASCII in its lower case, and so it
holds of every lower-casing that follows the standard. What is shown from it does not depend on the
tables. -/

/-- Whether a character is beyond ASCII and its lower case holds no ASCII character. -/
def IsForeign (c : Char) : Prop := 128 ≤ c.toNat ∧ c ≠ '\u212A' ∧ c ≠ '\u0130'

instance : DecidablePred IsForeign := fun _ => inferInstanceAs (Decidable (_ ∧ _ ∧ _))

theorem lowerChar_of_isForeign {c : Char} (h : IsForeign c) : lowerChar c = [c] := by
  rw [lowerChar_eq_toLower h.2.1 h.2.2, toLower_of_not_isUpper]
  intro hupper
  have hfirst := h.1
  have hlast : c.toNat ≤ 90 := hupper.2
  omega

/-- Whether `piece` can stand for a character in lower case: for a foreign character anything but
nothing that holds no ASCII character, and for any other its lower case. -/
def IsLowerOf (c : Char) (piece : List Char) : Prop :=
  if IsForeign c then piece ≠ [] ∧ ∀ d ∈ piece, 128 ≤ d.toNat else piece = lowerChar c

/-- Whether one text can be the lower case of another, character by character. What stands for a
character may depend on its neighbours: a capital sigma at the end of a word is not lowered as it is
elsewhere. -/
inductive IsLowerCase : List Char → List Char → Prop where
  | nil : IsLowerCase [] []
  | cons {c : Char} {piece s lowered : List Char} (hpiece : IsLowerOf c piece)
      (hrest : IsLowerCase s lowered) : IsLowerCase (c :: s) (piece ++ lowered)

theorem isLowerOf_lowerChar (c : Char) : IsLowerOf c (lowerChar c) := by
  unfold IsLowerOf
  split
  · rename_i hforeign
    rw [lowerChar_of_isForeign hforeign]
    refine ⟨List.cons_ne_nil _ _, fun d hd => ?_⟩
    rw [List.mem_singleton.mp hd]
    exact hforeign.1
  · rfl

theorem isLowerCase_lower (s : List Char) : IsLowerCase s (lower s) := by
  induction s with
  | nil => exact .nil
  | cons c s ih =>
    rw [lower_cons]
    exact .cons (isLowerOf_lowerChar c) ih

/-- A full lower-casing differs from `lower` only where both have characters beyond ASCII. -/
theorem IsLowerCase.eq_or {s lowered : List Char} (h : IsLowerCase s lowered) :
    lowered = lower s ∨ (∃ d ∈ lowered, 128 ≤ d.toNat) ∧ ∃ d ∈ lower s, 128 ≤ d.toNat := by
  induction h with
  | nil => exact .inl rfl
  | @cons c piece s lowered hpiece _ ih =>
    rw [lower_cons]
    unfold IsLowerOf at hpiece
    split at hpiece
    · rename_i hforeign
      obtain ⟨d, hd⟩ := List.exists_mem_of_ne_nil piece hpiece.1
      refine .inr ⟨⟨d, List.mem_append_left _ hd, hpiece.2 d hd⟩, c, ?_, hforeign.1⟩
      rw [lowerChar_of_isForeign hforeign]
      exact List.mem_append_left _ (List.mem_singleton.mpr rfl)
    · rw [hpiece]
      rcases ih with heq | ⟨⟨d, hd, hbeyond⟩, e, he, hbeyond'⟩
      · exact .inl (congrArg _ heq)
      · exact .inr ⟨⟨d, List.mem_append_right _ hd, hbeyond⟩,
          e, List.mem_append_right _ he, hbeyond'⟩

/-- Every full lower-casing agrees with `lower` on which texts have an ASCII word for lower case. -/
theorem IsLowerCase.eq_word_iff {s lowered word : List Char} (h : IsLowerCase s lowered)
    (hword : ∀ c ∈ word, c.toNat < 128) : lowered = word ↔ lower s = word := by
  rcases h.eq_or with heq | ⟨⟨d, hd, hbeyond⟩, e, he, hbeyond'⟩
  · rw [heq]
  · refine iff_of_false (fun hlowered => ?_) fun hlower => ?_
    · exact Nat.not_le_of_lt (hword d (hlowered ▸ hd)) hbeyond
    · exact Nat.not_le_of_lt (hword e (hlower ▸ he)) hbeyond'

end StaticSite.Text
