import Mathlib.Data.String.Basic
import NetplanEditor.Text.Sorted

/-!
# Named values in strict order

A reader builds a `Named` list by putting one value after the other, and the writer goes through it
from its start to its end. The two agree because putting keeps the names in strict order: a list in
that order is what putting its own values one by one gives again (`foldl_put_of_sorted`), however
often a name occurred in what was put.
-/

namespace NetplanEditor.Named

variable {α : Type}

/-- The names stand in strict order, so each occurs once. -/
def Sorted (fields : Named α) : Prop := fields.Pairwise fun a b => a.1 < b.1

theorem sorted_nil : Sorted ([] : Named α) := List.Pairwise.nil

theorem Sorted.names {fields : Named α} (sorted : Sorted fields) : fields.names.Pairwise (· < ·) :=
  List.pairwise_map.mpr sorted

/-- The first name that passes is the least that does. -/
theorem Sorted.le_of_find? {fields : Named α} (sorted : Sorted fields) {passes : String → Bool}
    {first other : String} (isFirst : fields.names.find? passes = some first)
    (member : other ∈ fields.names) (also : passes other = true) : first ≤ other := by
  obtain ⟨_, before, behind, split, blocked⟩ := List.find?_eq_some_iff_append.mp isFirst
  have ordered := sorted.names
  rw [split] at ordered member
  rcases List.mem_append.mp member with earlier | there
  · have blocked := blocked other earlier
    rw [also] at blocked
    cases blocked
  · rcases List.mem_cons.mp there with rfl | later
    · exact le_refl other
    · exact le_of_lt ((List.pairwise_cons.mp (List.pairwise_append.mp ordered).2.1).1 other later)

/-- Putting adds no name but its own, and no value but its own. -/
theorem mem_put {name : String} {value : α} {field : String × α} {fields : Named α}
    (member : field ∈ put name value fields) : field = (name, value) ∨ field ∈ fields := by
  induction fields with
  | nil => exact Or.inl (List.mem_singleton.mp member)
  | cons head rest ih =>
      rcases head with ⟨other, current⟩
      simp only [put] at member
      split at member
      · rcases List.mem_cons.mp member with rfl | old
        · exact Or.inl rfl
        · exact Or.inr old
      · split at member
        · rcases List.mem_cons.mp member with rfl | old
          · exact Or.inl rfl
          · exact Or.inr (List.mem_cons_of_mem _ old)
        · rcases List.mem_cons.mp member with rfl | later
          · exact Or.inr List.mem_cons_self
          · rcases ih later with new | old
            · exact Or.inl new
            · exact Or.inr (List.mem_cons_of_mem _ old)

theorem sorted_put {fields : Named α} (sorted : Sorted fields) (name : String) (value : α) :
    Sorted (put name value fields) := by
  induction fields with
  | nil => exact List.pairwise_singleton _ _
  | cons head rest ih =>
      rcases head with ⟨other, current⟩
      obtain ⟨above, restSorted⟩ := List.pairwise_cons.mp sorted
      simp only [put]
      split
      next before =>
        refine List.pairwise_cons.mpr ⟨fun field member => ?_, sorted⟩
        rcases List.mem_cons.mp member with rfl | old
        · exact before
        · exact lt_trans before (above field old)
      next notBefore =>
        split
        next same =>
          subst same
          exact List.pairwise_cons.mpr ⟨above, restSorted⟩
        next different =>
          have after : other < name := lt_of_le_of_ne (not_lt.mp notBefore) (Ne.symm different)
          refine List.pairwise_cons.mpr ⟨fun field member => ?_, ih restSorted⟩
          rcases mem_put member with rfl | old
          · exact after
          · exact above field old

/-- A name behind all others is put at the end. -/
theorem put_last {name : String} {value : α} {fields : Named α}
    (before : ∀ field ∈ fields, field.1 < name) :
    put name value fields = fields ++ [(name, value)] := by
  induction fields with
  | nil => rfl
  | cons head rest ih =>
      rcases head with ⟨other, current⟩
      have headBefore : other < name := before _ List.mem_cons_self
      have restBefore := ih fun field member => before field (List.mem_cons_of_mem _ member)
      simp only [put, if_neg (not_lt.mpr headBefore.le), if_neg headBefore.ne', restBefore,
        List.cons_append]

/-- What is put one by one in strict order is appended in that order. -/
theorem foldl_put_append {acc fields : Named α} (sorted : Sorted (acc ++ fields)) :
    fields.foldl (fun (done : Named α) (name, value) => done.put name value) acc = acc ++ fields := by
  induction fields generalizing acc with
  | nil => exact (List.append_nil acc).symm
  | cons head rest ih =>
      rcases head with ⟨name, value⟩
      have before : ∀ field ∈ acc, field.1 < name := fun field member =>
        (List.pairwise_append.mp sorted).2.2 field member _ List.mem_cons_self
      have regrouped : acc ++ (name, value) :: rest = (acc ++ [(name, value)]) ++ rest :=
        List.append_cons acc (name, value) rest
      rw [List.foldl_cons]
      dsimp only
      rw [put_last before, regrouped]
      exact ih (regrouped ▸ sorted)

/-- A list in strict order is what putting its values one by one gives. -/
theorem foldl_put_of_sorted {fields : Named α} (sorted : Sorted fields) :
    fields.foldl (fun (done : Named α) (name, value) => done.put name value) [] = fields := by
  have whole : Sorted ([] ++ fields) := sorted
  exact foldl_put_append whole

/-- Putting one by one keeps strict order and brings in nothing but what is put. -/
theorem foldl_put_inv (values : List (String × α)) {acc : Named α} (sorted : Sorted acc) :
    Sorted (values.foldl (fun (done : Named α) (name, value) => done.put name value) acc) ∧
      ∀ field ∈ values.foldl (fun (done : Named α) (name, value) => done.put name value) acc,
        field ∈ acc ∨ field ∈ values := by
  induction values generalizing acc with
  | nil => exact ⟨sorted, fun field member => Or.inl member⟩
  | cons head rest ih =>
      rcases head with ⟨name, value⟩
      obtain ⟨restSorted, origin⟩ := ih (sorted_put sorted name value)
      refine ⟨restSorted, fun field member => ?_⟩
      rcases origin field member with old | later
      · rcases mem_put old with rfl | older
        · exact Or.inr List.mem_cons_self
        · exact Or.inl older
      · exact Or.inr (List.mem_cons_of_mem _ later)

end NetplanEditor.Named
