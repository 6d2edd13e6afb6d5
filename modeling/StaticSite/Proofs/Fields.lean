import StaticSite.Fields
/-!
# StaticSite.Proofs.Fields

What `Fields.set` and `Fields.erase` do to the value of each name. **One name changes, and no
other** (`Fields.get?_set`, `Fields.get?_erase`), also if the names are not in order. Names that are
in order stay so (`Fields.Ascending.set`), so no name occurs twice in fields that are made from a
list.
-/

set_option autoImplicit false

namespace StaticSite.Fields

variable {α : Type} {fields : Fields α} {name : String} {value : α}

theorem get?_cons (key : String) (value : α) (rest : Fields α) (name : String) :
    get? ((key, value) :: rest) name = if key = name then some value else get? rest name := rfl

theorem get?_set (fields : Fields α) (name other : String) (value : α) :
    (fields.set name value).get? other =
      if name = other then some value else fields.get? other := by
  induction fields with
  | nil => rfl
  | cons field rest ih =>
    obtain ⟨key, old⟩ := field
    unfold set
    split
    · rename_i hkey
      rw [get?_cons, get?_cons, hkey]
      split
      · rfl
      · rfl
    · rename_i hkey
      split
      · exact get?_cons ..
      · rw [get?_cons, get?_cons, ih]
        split
        · rename_i hother
          rw [if_neg fun hname => hkey (hother.trans hname.symm)]
        · rfl

/-- Names that are not kept have no value, and all others keep theirs. -/
theorem get?_filter (keep : String → Bool) (fields : Fields α) (name : String) :
    get? (fields.filter fun field => keep field.1) name =
      if keep name then fields.get? name else none := by
  induction fields with
  | nil =>
    split
    · rfl
    · rfl
  | cons field rest ih =>
    obtain ⟨key, value⟩ := field
    rw [List.filter_cons, get?_cons]
    by_cases hkey : key = name
    · subst hkey
      cases hkeep : keep key with
      | true => simp [get?_cons]
      | false => simpa [hkeep] using ih
    · rw [if_neg hkey, ← ih]
      cases keep key with
      | true => exact if_neg hkey
      | false => rfl

theorem get?_erase (fields : Fields α) (name other : String) :
    (fields.erase name).get? other = if name = other then none else fields.get? other := by
  have hfilter := get?_filter (fun key => decide (key ≠ name)) fields other
  unfold erase
  rw [hfilter]
  by_cases hother : name = other
  · simp [hother]
  · simp [hother, Ne.symm hother]

theorem mem_of_get? (h : fields.get? name = some value) : (name, value) ∈ fields := by
  induction fields with
  | nil => cases h
  | cons field rest ih =>
    obtain ⟨key, old⟩ := field
    rw [get?_cons] at h
    split at h
    · rename_i hkey
      cases h
      rw [hkey]
      exact List.mem_cons_self
    · exact List.mem_cons_of_mem _ (ih h)

theorem get?_isSome_of_mem {field : String × α} (h : field ∈ fields) :
    (fields.get? field.1).isSome := by
  induction fields with
  | nil => cases h
  | cons first rest ih =>
    obtain ⟨key, old⟩ := first
    rw [get?_cons]
    split
    · rfl
    · rename_i hkey
      rcases List.mem_cons.mp h with rfl | h
      · exact absurd rfl hkey
      · exact ih h

theorem mem_names_iff : name ∈ fields.names ↔ (fields.get? name).isSome := by
  constructor
  · intro h
    obtain ⟨field, hfield, rfl⟩ := List.mem_map.mp h
    exact get?_isSome_of_mem hfield
  · intro h
    obtain ⟨value, hvalue⟩ := Option.isSome_iff_exists.mp h
    exact List.mem_map_of_mem (mem_of_get? hvalue)

/-- Of fields that are set one after the other each has its value, and no other name changes. -/
theorem get?_foldl_set {pairs : Fields α} (h : pairs.names.Nodup) (fields : Fields α)
    (name : String) :
    (pairs.foldl (fun fields pair => fields.set pair.1 pair.2) fields).get? name =
      (pairs.get? name).or (fields.get? name) := by
  induction pairs generalizing fields with
  | nil => rfl
  | cons pair rest ih =>
    obtain ⟨key, value⟩ := pair
    obtain ⟨hnew, hrest⟩ : key ∉ names rest ∧ (names rest).Nodup := List.nodup_cons.mp h
    rw [List.foldl_cons, ih hrest, get?_set, get?_cons]
    split
    · rename_i hkey
      have hnone : get? rest name = none := by
        rw [← hkey, ← Option.not_isSome_iff_eq_none, ← mem_names_iff]
        exact hnew
      rw [hnone]
      rfl
    · rfl

theorem mem_set {field : String × α} (h : field ∈ fields.set name value) :
    field = (name, value) ∨ field ∈ fields := by
  induction fields with
  | nil => exact .inl (List.mem_singleton.mp h)
  | cons first rest ih =>
    obtain ⟨key, old⟩ := first
    unfold set at h
    split at h
    · rcases List.mem_cons.mp h with rfl | h
      · exact .inl rfl
      · exact .inr (List.mem_cons_of_mem _ h)
    · split at h
      · rcases List.mem_cons.mp h with rfl | h
        · exact .inl rfl
        · exact .inr h
      · rcases List.mem_cons.mp h with rfl | h
        · exact .inr List.mem_cons_self
        · exact (ih h).imp_right (List.mem_cons_of_mem _)

theorem mem_ofList {pairs : List (String × α)} {field : String × α} (h : field ∈ ofList pairs) :
    field ∈ pairs := by
  have hall : ∀ start : Fields α,
      field ∈ pairs.foldl (fun fields pair => fields.set pair.1 pair.2) start →
        field ∈ start ∨ field ∈ pairs := by
    clear h
    induction pairs with
    | nil => exact fun start hstart => .inl hstart
    | cons pair rest ih =>
      intro start hstart
      rcases ih _ hstart with hset | hrest
      · rcases mem_set hset with rfl | hstart
        · exact .inr List.mem_cons_self
        · exact .inl hstart
      · exact .inr (List.mem_cons_of_mem _ hrest)
  exact (hall [] h).resolve_left (by simp)

/-! ### Order

Setting a name puts it where it belongs by the order. So what is in order stays in order, and fields
in order are equal if they say the same of each name. -/

/-- Whether the names are in ascending order, each of them once. -/
def Ascending (fields : Fields α) : Prop := fields.names.Pairwise (· < ·)

instance (fields : Fields α) : Decidable (Ascending fields) :=
  inferInstanceAs (Decidable (List.Pairwise _ _))

theorem mem_names_set {other : String} (h : other ∈ names (fields.set name value)) :
    other = name ∨ other ∈ fields.names := by
  obtain ⟨field, hfield, rfl⟩ := List.mem_map.mp h
  rcases mem_set hfield with rfl | hold
  · exact .inl rfl
  · exact .inr (List.mem_map_of_mem hold)

theorem Ascending.set (h : fields.Ascending) (name : String) (value : α) :
    Ascending (fields.set name value) := by
  induction fields with
  | nil => exact List.pairwise_singleton _ _
  | cons field rest ih =>
    obtain ⟨key, old⟩ := field
    obtain ⟨hafter, hrest⟩ : (∀ other ∈ names rest, key < other) ∧ Ascending rest :=
      List.pairwise_cons.mp h
    unfold Fields.set
    split
    · rename_i hkey
      exact List.pairwise_cons.mpr ⟨hkey ▸ hafter, hrest⟩
    · rename_i hkey
      split
      · -- the new name is before this one, and so before all
        rename_i hlt
        refine List.pairwise_cons.mpr ⟨fun other hother => ?_, h⟩
        rcases List.mem_cons.mp hother with rfl | hother
        · exact hlt
        · exact String.lt_trans hlt (hafter other hother)
      · rename_i hge
        -- the new name goes further back, and this one stays before all that come after it
        have hlt : key < name := Std.lt_of_le_of_ne (String.not_lt.mp hge) hkey
        refine List.pairwise_cons.mpr ⟨fun other hother => ?_, ih hrest⟩
        rcases mem_names_set hother with rfl | hother
        · exact hlt
        · exact hafter other hother

/-- Exactly the names that are set have a value. -/
theorem mem_names_ofList {pairs : List (String × α)} :
    name ∈ (ofList pairs).names ↔ name ∈ pairs.map Prod.fst := by
  have hall : ∀ start : Fields α,
      name ∈ (pairs.foldl (fun fields pair => fields.set pair.1 pair.2) start).names ↔
        name ∈ start.names ∨ name ∈ pairs.map Prod.fst := by
    induction pairs with
    | nil => simp
    | cons pair rest ih =>
      intro start
      have hset : name ∈ (start.set pair.1 pair.2).names ↔ name = pair.1 ∨ name ∈ start.names := by
        rw [mem_names_iff, mem_names_iff, get?_set]
        split
        · rename_i hname
          simp [hname]
        · rename_i hname
          simp [Ne.symm hname]
      rw [List.foldl_cons, ih, hset, List.map_cons, List.mem_cons, or_assoc, or_left_comm]
  have hnone : name ∉ names ([] : Fields α) := List.not_mem_nil
  exact (hall []).trans (or_iff_right hnone)

theorem Ascending.foldl_set (h : fields.Ascending) (pairs : List (String × α)) :
    Ascending (pairs.foldl (fun fields pair => fields.set pair.1 pair.2) fields) := by
  induction pairs generalizing fields with
  | nil => exact h
  | cons pair rest ih => exact ih (h.set pair.1 pair.2)

theorem ascending_ofList (pairs : List (String × α)) : Ascending (ofList pairs) :=
  have hnil : Ascending ([] : Fields α) := List.Pairwise.nil
  hnil.foldl_set pairs

theorem Ascending.nodup_names (h : fields.Ascending) : fields.names.Nodup := by
  refine List.Pairwise.imp (fun hlt => ?_) h
  rintro rfl
  exact String.lt_irrefl _ hlt

theorem Ascending.filter (h : fields.Ascending) (keep : String × α → Bool) :
    Ascending (fields.filter keep) :=
  List.Pairwise.sublist (List.filter_sublist.map Prod.fst) h

theorem Ascending.erase (h : fields.Ascending) (name : String) : Ascending (fields.erase name) :=
  h.filter _

/-- What stands in order is what its names have as values. -/
theorem Ascending.get?_of_mem (h : fields.Ascending) {field : String × α}
    (hfield : field ∈ fields) :
    fields.get? field.1 = some field.2 := by
  induction fields with
  | nil => cases hfield
  | cons first rest ih =>
    obtain ⟨key, old⟩ := first
    rw [get?_cons]
    rcases List.mem_cons.mp hfield with rfl | hfield
    · exact if_pos rfl
    · obtain ⟨hafter, hrest⟩ : (∀ other ∈ names rest, key < other) ∧ Ascending rest :=
        List.pairwise_cons.mp h
      have hlt := hafter field.1 (List.mem_map_of_mem hfield)
      rw [if_neg fun heq => String.lt_irrefl _ (heq ▸ hlt)]
      exact ih hrest hfield

/-- Two lists in strict order are equal if they have the same elements. -/
theorem eq_of_pairwise {β : Type} (lt : β → β → Prop) (hirrefl : ∀ b, ¬ lt b b)
    (htrans : ∀ {a b c}, lt a b → lt b c → lt a c) {first second : List β}
    (hfirst : first.Pairwise lt) (hsecond : second.Pairwise lt)
    (hmem : ∀ b, b ∈ first ↔ b ∈ second) : first = second := by
  have hnodup : ∀ {all : List β}, all.Pairwise lt → all.Nodup := by
    intro all hall
    refine List.Pairwise.imp (fun hlt => ?_) hall
    rintro rfl
    exact hirrefl _ hlt
  refine List.Perm.eq_of_pairwise (fun a b _ _ hab hba => ?_) hfirst hsecond
    ((List.perm_ext_iff_of_nodup (hnodup hfirst) (hnodup hsecond)).mpr hmem)
  exact absurd (htrans hab hba) (hirrefl a)

/-- Two records in order are equal if each name has one value in both. -/
theorem Ascending.ext {first second : Fields α} (hfirst : first.Ascending)
    (hsecond : second.Ascending) (h : ∀ name, first.get? name = second.get? name) :
    first = second := by
  have hsorted : ∀ {fields : Fields α}, fields.Ascending →
      List.Pairwise (fun a b => a.1 < b.1) fields := fun hfields => List.pairwise_map.mp hfields
  refine eq_of_pairwise (fun a b => a.1 < b.1) (fun field => String.lt_irrefl field.1)
    String.lt_trans (hsorted hfirst) (hsorted hsecond)
    fun field => ⟨fun hfield => ?_, fun hfield => ?_⟩
  · exact mem_of_get? (h field.1 ▸ hfirst.get?_of_mem hfield)
  · exact mem_of_get? ((h field.1).symm ▸ hsecond.get?_of_mem hfield)

end StaticSite.Fields
