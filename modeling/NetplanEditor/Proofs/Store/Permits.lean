import NetplanEditor.Proofs.Routine.Permits
import NetplanEditor.Store.File

/-!
# What a store of files may do

A load only looks. A save may change files, runs nothing, and says that a document has no text only
where it has none: `HasText` holds of the result in all other cases. The parts of a save are gone
through in the order of its definition, each with what it may do and what it ends with.
-/

namespace NetplanEditor

open Routine (Gives)

namespace FileStore

/-! ## Loading -/

theorem load_gives (store : FileStore) (interface : String) :
    Gives .look (fun _ => True) (store.load interface) := by
  refine .read fun answer => ?_
  cases answer with
  | error cause =>
      dsimp only
      split
      · exact Gives.logged _ (.done trivial)
      · exact .done trivial
  | ok content =>
      dsimp only
      cases String.fromUTF8? content with
      | none => exact .done trivial
      | some text => exact Gives.shared (.done trivial)

/-! ## Saving -/

/-- The save was not given up for want of a text. -/
def HasText (value : Except SaveError Unit) : Prop := ∀ cause, value ≠ .error (.unwritable cause)

theorem settle_gives (path : String) (answer : Except SystemError Unit) :
    Gives .write (fun _ => True) (makeDirectories.settle path answer) := by
  cases answer with
  | ok => exact .done trivial
  | error cause => exact .isDirectory fun there => .done trivial

theorem makeDirectories_gives (paths : List String) :
    Gives .write (fun _ => True) (makeDirectories paths) := by
  induction paths with
  | nil => exact .done trivial
  | cons path above ih =>
      rw [makeDirectories]
      split
      · exact .done trivial
      · refine .makeDirectory rfl fun answer => ?_
        cases answer with
        | ok => exact .done trivial
        | error cause =>
            dsimp only
            split
            · refine ih.bind fun value _ => ?_
              cases value with
              | error cause => exact .done trivial
              | ok => exact .makeDirectory rfl (settle_gives path)
            · exact settle_gives path _

theorem prepare_gives (path : String) : Gives .write HasText (prepare path) := by
  unfold prepare
  split
  · exact .done fun cause none => by cases none
  · refine (makeDirectories_gives _).bind fun value _ => ?_
    cases value with
    | error cause => exact .done fun cause none => by cases none
    | ok => exact .done fun cause none => by cases none

theorem keep_gives (path backup : String) : Gives .write HasText (keep path backup) := by
  have kept (events : List LogEvent) : Gives .write HasText (do
      MonadLog.logAll events
      return .ok () : Routine (Except SaveError Unit)) :=
    Gives.logged _ (.done fun cause none => by cases none)
  refine .link rfl fun answer => ?_
  cases answer with
  | ok => exact kept _
  | error cause =>
      refine .log (.copy rfl fun answer => ?_)
      cases answer with
      | ok => exact kept _
      | error cause => exact .done fun cause none => by cases none

theorem backUp_gives (path : String) : Gives .write HasText (backUp path) := by
  refine .isPresent fun present => ?_
  cases present with
  | false => exact .done fun cause none => by cases none
  | true =>
      refine .remove rfl fun answer => ?_
      cases answer with
      | ok => exact keep_gives path _
      | error cause =>
          dsimp only
          split
          · exact keep_gives path _
          · exact .done fun cause none => by cases none

theorem replace_gives (temporary path : String) :
    Gives .write HasText (replace temporary path) := by
  refine (backUp_gives path).bind fun value hasText => ?_
  cases value with
  | error error => exact .done hasText
  | ok =>
      refine .rename rfl fun answer => .done ?_
      cases answer with
      | error cause => exact fun cause none => by cases none
      | ok => exact fun cause none => by cases none

theorem discard_gives (temporary : String) : Gives .write (fun _ => True) (discard temporary) := by
  refine .remove rfl fun answer => ?_
  cases answer with
  | ok => exact .done trivial
  | error cause => exact Gives.logAll .write _

theorem writeText_gives (path text : String) : Gives .write HasText (writeText path text) := by
  refine .write rfl fun answer => ?_
  cases answer with
  | error cause => exact .done fun cause none => by cases none
  | ok =>
      refine (replace_gives _ path).bind fun value hasText => ?_
      cases value with
      | ok => exact .done hasText
      | error error => exact (discard_gives _).bind fun _ _ => .done hasText

/-- A save may change files. It is given up for want of a text only if there is none. -/
theorem save_gives (store : FileStore) {document : Document} {text : String}
    (renders : document.render = .ok text) : Gives .write HasText (store.save document) := by
  unfold save
  rw [renders]
  refine Gives.logged _ ((prepare_gives _).bind fun value hasText => ?_)
  cases value with
  | error error => exact .done hasText
  | ok => exact writeText_gives _ text

/-- A document that has no text is not saved. -/
theorem save_unwritable (store : FileStore) {document : Document} {cause : DocumentError}
    (fails : document.render = .error cause) :
    store.save document = .done (.error (.unwritable cause)) := by
  unfold save
  rw [fails]
  rfl

end FileStore

end NetplanEditor
