import NetplanEditor.Proofs.Engine.Stored

/-!
# What a dry run tells

A dry run and a real one load the same document, change it in the same way and bring it to the same
text, if it has one (`Edit.outcome`). The dry run shows the text (`Engine.shown`), the real one
stores it (`Engine.Fulfils`), and where there is none each fails in its own way. `Engine.Predicts`
says what can be told from the one about the other; it follows from what both do with the outcome
(`predicts_of`), whichever store the engine works on.
-/

namespace NetplanEditor

/-- The changed document, where loading has come to this. -/
def Edit.changed (edit : Edit) : Except LoadError Document → Except ActionError Document
  | .error error => .error (.load error)
  | .ok document => (edit.apply document).value.mapError .edit

/-- What a change comes to before anything is saved: the text of the changed document, or why it has
none. -/
def Edit.outcome (edit : Edit) (loaded : Except LoadError Document) :
    Except ActionError (Except DocumentError String) :=
  (edit.changed loaded).map Document.render

/-- It fails in no other way than by loading or by the change. -/
theorem Edit.outcome_error {edit : Edit} {loaded : Except LoadError Document} {error : ActionError}
    (fails : edit.outcome loaded = .error error) :
    (∃ cause, error = .load cause) ∨ ∃ cause, error = .edit cause := by
  cases loaded with
  | error cause =>
      cases fails
      exact Or.inl ⟨cause, rfl⟩
  | ok document =>
      cases changes : edit.changed (.ok document) with
      | error error =>
          rw [Edit.outcome, changes] at fails
          cases fails
          obtain ⟨cause, _, rfl⟩ := mapError_eq_error changes
          exact Or.inr ⟨cause, rfl⟩
      | ok after =>
          rw [Edit.outcome, changes] at fails
          cases fails

/-- A change of a document that has come about gives one. -/
theorem Edit.changed_reachable {edit : Edit} {loaded : Except LoadError Document}
    {interface : String} {after : Document}
    (reachable : ∀ document, loaded = .ok document → Document.Reachable interface document)
    (changes : edit.changed loaded = .ok after) : Document.Reachable interface after := by
  cases loaded with
  | error cause => cases changes
  | ok document => exact .edited (reachable document rfl) (mapError_eq_ok changes)

namespace Engine

/-- What a dry run shows of an outcome. -/
def shown : Except ActionError (Except DocumentError String) → Except ActionError Outcome
  | .error error => .error error
  | .ok (.error cause) => .error (.render cause)
  | .ok (.ok text) => .ok (.rendered text)

/-- What a run stores of an outcome, where nothing keeps it from being written. -/
def written : Except ActionError (Except DocumentError String) → Except ActionError String
  | .error error => .error error
  | .ok (.error cause) => .error (.save (.unwritable cause))
  | .ok (.ok text) => .ok text

/-- A run that ends with `result` has done what was to be written: a text is stored, or the run has
failed for the reason that there is none, and all is kept. -/
def Fulfils (result : Except ActionError Outcome) (kept : Prop) (stored : String → Prop) :
    Except ActionError String → Prop
  | .ok text => Rehearsal.passedSave result = true ∧ stored text
  | .error error => result = .error error ∧ kept

/-- What a dry run that ends with `shown` tells about a run that ends with `result`. Of the latter,
`kept` says that it has stored nothing, and `stored` that it has stored a text. -/
structure Predicts (shown result : Except ActionError Outcome) (kept : Prop)
    (stored : String → Prop) : Prop where
  /-- A text is shown if the run gets past its save, and only then. -/
  passes : (∃ text, shown = .ok (.rendered text)) ↔ Rehearsal.passedSave result = true
  /-- The text that is shown is the one that is stored. -/
  stores : ∀ text, shown = .ok (.rendered text) → stored text
  /-- Loading fails alike, and so does the change. -/
  fails : ∀ error, shown = .error error → (∀ cause, error ≠ .render cause) →
    result = .error error ∧ kept
  /-- What cannot be shown cannot be saved, for the same cause. -/
  unwritable : ∀ cause, shown = .error (.render cause) →
    result = .error (.save (.unwritable cause)) ∧ kept

theorem predicts_of {edit : Edit} {loaded : Except LoadError Document}
    {result : Except ActionError Outcome} {kept : Prop} {stored : String → Prop}
    (ends : Fulfils result kept stored (written (edit.outcome loaded))) :
    Predicts (shown (edit.outcome loaded)) result kept stored := by
  cases come : edit.outcome loaded with
  | error error =>
      rw [come] at ends
      obtain ⟨rfl, kept⟩ := ends
      have early := Edit.outcome_error come
      refine ⟨⟨?_, ?_⟩, ?_, ?_, ?_⟩
      · rintro ⟨text, shows⟩
        cases shows
      · intro passed
        rcases early with ⟨cause, rfl⟩ | ⟨cause, rfl⟩ <;> cases passed
      · intro text shows
        cases shows
      · intro other shows _
        cases shows
        exact ⟨rfl, kept⟩
      · intro cause shows
        cases shows
        rcases early with ⟨other, same⟩ | ⟨other, same⟩ <;> cases same
  | ok rendering =>
      rw [come] at ends
      cases rendering with
      | error cause =>
          obtain ⟨rfl, kept⟩ := ends
          refine ⟨⟨?_, ?_⟩, ?_, ?_, ?_⟩
          · rintro ⟨text, shows⟩
            cases shows
          · intro passed
            cases passed
          · intro text shows
            cases shows
          · intro error shows early
            cases shows
            exact (early cause rfl).elim
          · intro other shows
            cases shows
            exact ⟨rfl, kept⟩
      | ok text =>
          refine ⟨⟨fun _ => ends.1, fun _ => ⟨text, rfl⟩⟩, ?_, ?_, ?_⟩
          · intro other shows
            cases shows
            exact ends.2
          · intro error shows
            cases shows
          · intro cause shows
            cases shows

end Engine

/-! ## On a stage -/

namespace Rehearsal

variable {script : Script} {interface : String} {edit : Edit} {before : Stage}

theorem outcome_eq (script : Script) (interface : String) (edit : Edit) (stored : Option String) :
    edit.outcome (script.loaded interface stored) =
      (script.changed interface edit stored).map Document.render := by
  unfold Edit.outcome Edit.changed Script.changed
  cases script.loaded interface stored <;> rfl

/-- A dry run shows the outcome and leaves what is stored. -/
theorem performed_dry (script : Script) (interface : String) (edit : Edit) (before : Stage) :
    (performed script true interface (.change edit) before).1 =
        Engine.shown (edit.outcome (script.loaded interface before.text)) ∧
      (performed script true interface (.change edit) before).2.text = before.text := by
  obtain ⟨made, result, left, course, makes⟩ :=
    perform_course script true interface (.change edit) before
  have ends : (performed script true interface (.change edit) before).1 = result := makes.value
  have leaves : (performed script true interface (.change edit) before).2.text = left := makes.text
  rw [ends, leaves, outcome_eq]
  cases course with
  | unchanged fails =>
      rw [fails]
      exact ⟨rfl, rfl⟩
  | unrendered _ changes fails =>
      rw [changes, Except.map, fails]
      exact ⟨rfl, rfl⟩
  | rendered _ changes renders =>
      rw [changes, Except.map, renders]
      exact ⟨rfl, rfl⟩
  | unsaved wet => cases wet
  | committed wet => cases wet

/-- A run whose save does not fail by itself stores what the outcome is. -/
theorem written_eq (unfailing : script.saveFailure = none) (stored : Option String) :
    script.written interface edit stored =
      Engine.written (edit.outcome (script.loaded interface stored)) := by
  rw [outcome_eq]
  unfold Script.written Script.saved
  rw [unfailing]
  cases script.changed interface edit stored with
  | error error => rfl
  | ok document =>
      dsimp only [Except.map]
      cases document.render <;> rfl

/-- A dry run on a stage tells what a run does whose save does not fail by itself. -/
theorem performed_predicts (unfailing : script.saveFailure = none) :
    Engine.Predicts (performed script true interface (.change edit) before).1
      (performed script false interface (.change edit) before).1
      ((performed script false interface (.change edit) before).2.text = before.text)
      fun text => (performed script false interface (.change edit) before).2.text = some text := by
  rw [(performed_dry script interface edit before).1]
  refine Engine.predicts_of ?_
  have spec := performed_change script interface edit before
  rw [written_eq unfailing] at spec
  cases written : Engine.written (edit.outcome (script.loaded interface before.text)) with
  | error error =>
      rw [written] at spec
      exact ⟨spec.1.result, spec.1.text⟩
  | ok text =>
      rw [written] at spec
      exact ⟨spec.passed, spec.text⟩

end Rehearsal

end NetplanEditor
