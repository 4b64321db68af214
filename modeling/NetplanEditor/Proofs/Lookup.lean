import NetplanEditor.Proofs.Named

/-!
# Named values looked up

Putting values one after the other leaves under every name the last value that it was given
(`lookup_foldl_put`). What is written is put together from values that may be missing (`present`)
and others under names that are none of theirs, and every name finds its own again
(`lookup_beside_own`, `lookup_beside`).
-/

namespace NetplanEditor.Named

variable {α : Type}

theorem lookup_cons (name key : String) (value : α) (fields : Named α) :
    List.lookup name ((key, value) :: fields) =
      if name = key then some value else fields.lookup name := by
  rw [List.lookup_cons]
  by_cases same : name = key
  · simp [same]
  · simp only [beq_eq_false_iff_ne.mpr same, if_neg same]

theorem mem_of_lookup {fields : Named α} {name : String} {value : α}
    (found : fields.lookup name = some value) : (name, value) ∈ fields := by
  obtain ⟨before, behind, rfl, _⟩ := List.lookup_eq_some_iff.mp found
  exact List.mem_append_right _ List.mem_cons_self

theorem lookup_eq_none {fields : Named α} {name : String} :
    fields.lookup name = none ↔ name ∉ fields.names := by
  rw [List.lookup_eq_none_iff, names, List.mem_map]
  constructor
  · rintro differs ⟨field, member, rfl⟩
    simpa using differs field member
  · intro absent field member
    rw [bne_iff_ne]
    rintro rfl
    exact absent ⟨field, member, rfl⟩

/-! ## The last value of a name -/

/-- The last value under the name. -/
def last? (fields : List (String × α)) (name : String) : Option α := fields.reverse.lookup name

@[simp] theorem last?_concat (fields : List (String × α)) (key : String) (value : α)
    (name : String) :
    last? (fields ++ [(key, value)]) name =
      if name = key then some value else last? fields name := by
  rw [last?, List.reverse_concat, lookup_cons, last?]

theorem last?_cons (key : String) (value : α) (fields : List (String × α)) (name : String) :
    last? ((key, value) :: fields) name =
      (last? fields name).or (if name = key then some value else none) := by
  rw [last?, List.reverse_cons, List.lookup_append, lookup_cons, last?]
  rfl

theorem last?_eq_none {fields : List (String × α)} {name : String} :
    last? fields name = none ↔ name ∉ names fields := by
  rw [last?, lookup_eq_none, names, List.map_reverse, List.mem_reverse]
  rfl

theorem mem_of_last? {fields : List (String × α)} {name : String} {value : α}
    (found : last? fields name = some value) : (name, value) ∈ fields :=
  List.mem_reverse.mp (mem_of_lookup found)

theorem lookup_put (key : String) (value : α) (fields : Named α) (name : String) :
    (put key value fields).lookup name =
      if name = key then some value else fields.lookup name := by
  induction fields with
  | nil => exact lookup_cons name key value []
  | cons head rest ih =>
      rcases head with ⟨other, current⟩
      simp only [put]
      split
      · exact lookup_cons name key value _
      · split
        next same =>
          rw [lookup_cons, lookup_cons, same]
          split <;> rfl
        next different =>
          rw [lookup_cons, lookup_cons, ih]
          by_cases own : name = key
          · subst own
            simp only [if_neg different, if_true]
          · simp only [if_neg own]

/-- What is put one by one leaves the last value of each name. -/
theorem lookup_foldl_put (values : List (String × α)) (acc : Named α) (name : String) :
    (values.foldl (fun (done : Named α) (name, value) => done.put name value) acc).lookup name =
      (last? values name).or (acc.lookup name) := by
  induction values generalizing acc with
  | nil => rfl
  | cons head rest ih =>
      rcases head with ⟨key, value⟩
      rw [List.foldl_cons, ih, lookup_put, last?_cons]
      by_cases own : name = key <;> cases last? rest name <;> simp [own]

/-! ## Values that may be missing -/

/-- The values that are there. -/
def present (fields : Named (Option α)) : Named α :=
  fields.filterMap fun (name, value) => value.map (name, ·)

theorem names_present_sublist (fields : Named (Option α)) :
    (present fields).names.Sublist fields.names := by
  induction fields with
  | nil => exact .slnil
  | cons head rest ih =>
      rcases head with ⟨name, value⟩
      cases value with
      | none => exact ih.cons name
      | some value => exact ih.cons_cons name

theorem lookup_present {fields : Named (Option α)} (distinct : fields.names.Nodup) (name : String) :
    (present fields).lookup name = (fields.lookup name).join := by
  induction fields with
  | nil => rfl
  | cons head rest ih =>
      rcases head with ⟨key, value⟩
      obtain ⟨fresh, restDistinct⟩ := List.nodup_cons.mp distinct
      rw [lookup_cons]
      cases value with
      | none =>
          have skips : present ((key, none) :: rest) = present rest := rfl
          rw [skips, ih restDistinct]
          split
          next same =>
            subst same
            rw [lookup_eq_none.mpr fresh]
            rfl
          next => rfl
      | some value =>
          have keeps : present ((key, some value) :: rest) = (key, value) :: present rest := rfl
          rw [keeps, lookup_cons, ih restDistinct]
          split <;> rfl

section Beside

variable {own : Named (Option α)} {others : Named α} (distinct : own.names.Nodup)
  (apart : ∀ field ∈ others, field.1 ∉ own.names)

include distinct apart

/-- Beside values under other names, every name of its own finds its own value. -/
theorem lookup_beside_own {name : String} (owned : name ∈ own.names) :
    (present own ++ others).lookup name = (own.lookup name).join := by
  have notOther : List.lookup name others = none := by
    rw [lookup_eq_none]
    intro there
    obtain ⟨field, member, rfl⟩ := List.mem_map.mp there
    exact apart field member owned
  rw [List.lookup_append, lookup_present distinct, notOther, Option.or_none]

omit distinct apart in
theorem lookup_beside {name : String} (other : name ∉ own.names) :
    (present own ++ others).lookup name = others.lookup name := by
  have notOwn : (present own).lookup name = none :=
    lookup_eq_none.mpr fun there => other ((names_present_sublist own).subset there)
  rw [List.lookup_append, notOwn, Option.none_or]

theorem nodup_beside (sorted : others.Sorted) : (present own ++ others).names.Nodup := by
  rw [names, List.map_append]
  refine List.nodup_append.mpr ⟨(names_present_sublist own).nodup distinct, ?_, ?_⟩
  · exact sorted.names.imp ne_of_lt
  · intro name isOwn other isOther
    obtain ⟨field, member, rfl⟩ := List.mem_map.mp isOther
    rintro rfl
    exact apart field member ((names_present_sublist own).subset isOwn)

end Beside

end NetplanEditor.Named
