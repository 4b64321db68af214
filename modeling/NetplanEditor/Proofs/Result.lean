import Mathlib.Control.Monad.Basic
import Mathlib.Data.List.Forall2

/-!
# Results taken apart

A reader that succeeds has succeeded in each of its parts. These lemmas turn a successful result
back into the successes it was made of, and a failure into the one that it stands for.
-/

namespace NetplanEditor

variable {ε α β : Type}

theorem map_eq_ok {x : Except ε α} {f : α → β} {b : β} (ok : x.map f = .ok b) :
    ∃ a, x = .ok a ∧ f a = b := by
  cases x with
  | error e => cases ok
  | ok a => exact ⟨a, rfl, Except.ok.inj ok⟩

theorem map_eq_error {x : Except ε α} {f : α → β} {e : ε} : x.map f = .error e ↔ x = .error e := by
  cases x <;> simp [Except.map]

theorem mapError_eq_ok {δ : Type} {x : Except ε α} {f : ε → δ} {a : α}
    (ok : x.mapError f = .ok a) : x = .ok a := by
  cases x with
  | error e => cases ok
  | ok b => exact congrArg Except.ok (Except.ok.inj ok)

theorem mapError_eq_error {δ : Type} {x : Except ε α} {f : ε → δ} {d : δ}
    (fails : x.mapError f = .error d) : ∃ e, x = .error e ∧ f e = d := by
  cases x with
  | error e => exact ⟨e, rfl, Except.error.inj fails⟩
  | ok a => cases fails

theorem bind_eq_ok {x : Except ε α} {f : α → Except ε β} {b : β} (ok : x >>= f = .ok b) :
    ∃ a, x = .ok a ∧ f a = .ok b := by
  cases x with
  | error e => cases ok
  | ok a => exact ⟨a, rfl, ok⟩

/-- Results are collected if every item has one. -/
theorem mapM_eq_ok {f : α → Except ε β} {xs : List α} {ys : List β} :
    xs.mapM f = .ok ys ↔ List.Forall₂ (fun x y => f x = .ok y) xs ys := by
  induction xs generalizing ys with
  | nil => cases ys <;> simp [pure, Except.pure]
  | cons x xs ih =>
      rw [List.mapM_cons]
      constructor
      · intro ok
        obtain ⟨y, first, ok⟩ := bind_eq_ok ok
        obtain ⟨others, rest, same⟩ := bind_eq_ok ok
        cases same
        exact .cons first (ih.mp rest)
      · intro each
        cases each with
        | cons first rest =>
            rw [first, ih.mpr rest]
            rfl

/-- What is related one by one is so for every item. -/
theorem related_of_mem {R : α → β → Prop} {xs : List α} {ys : List β} {x : α}
    (each : List.Forall₂ R xs ys) (member : x ∈ xs) : ∃ y ∈ ys, R x y := by
  induction each with
  | nil => cases member
  | cons first rest ih =>
      rcases List.mem_cons.mp member with rfl | later
      · exact ⟨_, List.mem_cons_self, first⟩
      · obtain ⟨y, there, related⟩ := ih later
        exact ⟨y, List.mem_cons_of_mem _ there, related⟩

/-- Every item has a result among those collected. -/
theorem result_of_mem {f : α → Except ε β} {xs : List α} {ys : List β} {x : α}
    (ok : xs.mapM f = .ok ys) (member : x ∈ xs) : ∃ y ∈ ys, f x = .ok y :=
  related_of_mem (mapM_eq_ok.mp ok) member

/-- Everything that is collected is the result of an item. -/
theorem item_of_mem {f : α → Except ε β} {xs : List α} {ys : List β} {y : β}
    (ok : xs.mapM f = .ok ys) (member : y ∈ ys) : ∃ x ∈ xs, f x = .ok y :=
  related_of_mem (mapM_eq_ok.mp ok).flip member

/-- Results are not collected if some item has none, and the first of these items is to blame. -/
theorem mapM_eq_error {f : α → Except ε β} {xs : List α} {e : ε} :
    xs.mapM f = .error e ↔
      ∃ before x after, xs = before ++ x :: after ∧ (∀ y ∈ before, ∃ b, f y = .ok b) ∧
        f x = .error e := by
  induction xs with
  | nil => simp [pure, Except.pure]
  | cons x xs ih =>
      rw [List.mapM_cons]
      cases first : f x with
      | error fault =>
          constructor
          · intro same
            exact ⟨[], x, xs, rfl, by simp, by rw [first, Except.error.inj same]⟩
          · rintro ⟨before, y, after, split, succeed, fails⟩
            cases before with
            | nil =>
                cases split
                rw [Except.error.inj (first.symm.trans fails)]
                rfl
            | cons earlier before =>
                cases split
                obtain ⟨b, ok⟩ := succeed _ List.mem_cons_self
                cases first.symm.trans ok
      | ok b =>
          have passes : (Except.ok b >>= fun y => xs.mapM f >>= fun ys => pure (y :: ys)) =
              (.error e : Except ε (List β)) ↔ xs.mapM f = .error e := by
            cases xs.mapM f <;> simp [bind, Except.bind, pure, Except.pure]
          rw [passes, ih]
          constructor
          · rintro ⟨before, y, after, rfl, succeed, fails⟩
            refine ⟨x :: before, y, after, rfl, ?_, fails⟩
            exact List.forall_mem_cons.mpr ⟨⟨b, first⟩, succeed⟩
          · rintro ⟨before, y, after, split, succeed, fails⟩
            cases before with
            | nil =>
                cases split
                cases first.symm.trans fails
            | cons earlier before =>
                cases split
                exact ⟨before, y, after, rfl, (List.forall_mem_cons.mp succeed).2, fails⟩

end NetplanEditor
