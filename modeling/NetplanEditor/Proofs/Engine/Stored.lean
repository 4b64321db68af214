import NetplanEditor.Proofs.Document.Edits
import NetplanEditor.Proofs.Document.RoundTrip
import NetplanEditor.Proofs.Engine.Ordering

/-!
# What is stored after a change

A change that is saved leaves a text that is loaded again as the changed document, so what edits do
to documents carries over to what actions do to the stored text. `Script.written` is the text that a
change stores, and `stores_iff` says that an engine stores just that. From there:

* a run of actions none of which starts over preserves all but gateways and routes (`Run.preserves`);
* an action that starts over stores the same text whatever was stored before
  (`starting_over_independent`);
* an action that is performed again stores the same text again (`stores_again`).

Where a text is loaded that was written, it is assumed of the data language that it reads back.
-/

namespace NetplanEditor

/-- The text that a change stores, where loading, the change and the save succeed. -/
def Script.written (script : Script) (interface : String) (edit : Edit) (stored : Option String) :
    Except ActionError String :=
  match script.changed interface edit stored with
  | .error error => .error error
  | .ok document => (script.saved document).mapError .save

theorem Script.written_eq_ok {script : Script} {interface : String} {edit : Edit}
    {stored : Option String} {text : String} :
    script.written interface edit stored = .ok text ↔
      script.Commits interface edit stored text := by
  unfold Script.written
  cases changes : script.changed interface edit stored with
  | error error =>
      constructor
      · intro none
        cases none
      · rintro ⟨document, other, _⟩
        cases changes.symm.trans other
  | ok document =>
      constructor
      · intro saves
        obtain ⟨unfailing, renders⟩ := saved_eq_ok.mp (mapError_eq_ok saves)
        exact ⟨document, changes, unfailing, renders⟩
      · rintro ⟨other, same, unfailing, renders⟩
        cases changes.symm.trans same
        dsimp only
        rw [saved_eq_ok.mpr ⟨unfailing, renders⟩]
        rfl

namespace Rehearsal

variable {script first second : Script} {interface : String} {before after start stage : Stage}
  {edit : Edit} {action : Action} {actions : List Action} {document : Document} {text : String}

/-! ## Performing a change -/

/-- How an action ends on a stage, and the stage that it leaves. -/
def performed (script : Script) (dryRun : Bool) (interface : String) (action : Action)
    (before : Stage) : Except ActionError Outcome × Stage :=
  ((engine script dryRun).perform interface action).run before

/-- The change was saved: only putting it into effect was left. -/
def passedSave : Except ActionError Outcome → Bool
  | .ok (.reconciled _) | .error (.reconcile _) => true
  | _ => false

theorem passedSave_reconciled (result : Except ReconcileError ReconcileReport) :
    passedSave (reconciled result) = true := by
  cases result <;> rfl

/-- The change is made and saved, and this is the text that is stored. -/
structure Stores (script : Script) (interface : String) (edit : Edit) (before : Stage)
    (text : String) : Prop where
  passed : passedSave (performed script false interface (.change edit) before).1 = true
  text : (performed script false interface (.change edit) before).2.text = some text

/-- The change fails with this error, and leaves what is stored. -/
structure Fails (script : Script) (interface : String) (edit : Edit) (before : Stage)
    (error : ActionError) : Prop where
  result : (performed script false interface (.change edit) before).1 = .error error
  text : (performed script false interface (.change edit) before).2.text = before.text

/-- A change stores its text, or it fails before. -/
theorem performed_change (script : Script) (interface : String) (edit : Edit) (before : Stage) :
    match script.written interface edit before.text with
    | .ok text => Stores script interface edit before text
    | .error error =>
      Fails script interface edit before error ∧ passedSave (.error error) = false := by
  obtain ⟨made, result, left, course, makes⟩ :=
    perform_course script false interface (.change edit) before
  have ends : (performed script false interface (.change edit) before).1 = result := makes.value
  have leaves : (performed script false interface (.change edit) before).2.text = left := makes.text
  unfold Script.written
  cases course with
  | @unchanged _ error fails =>
      rw [fails]
      refine ⟨⟨ends, leaves⟩, ?_⟩
      cases error with
      | reconcile cause => exact (Script.changed_ne_reconcile fails).elim
      | _ => rfl
  | unrendered dry => cases dry
  | rendered dry => cases dry
  | unsaved _ changes fails =>
      rw [changes]
      dsimp only
      rw [fails]
      exact ⟨⟨ends, leaves⟩, rfl⟩
  | committed _ changes saves =>
      rw [changes]
      dsimp only
      rw [saves]
      exact ⟨(congrArg passedSave ends).trans (passedSave_reconciled _), leaves⟩

/-- What an engine stores is the text that the change comes to. -/
theorem stores_iff :
    Stores script interface edit before text ↔
      script.written interface edit before.text = .ok text := by
  have spec := performed_change script interface edit before
  cases written : script.written interface edit before.text with
  | error error =>
      rw [written] at spec
      constructor
      · intro stores
        have passed := stores.passed
        rw [spec.1.result, spec.2] at passed
        cases passed
      · intro none
        cases none
  | ok other =>
      rw [written] at spec
      constructor
      · intro stores
        exact congrArg Except.ok (Option.some.inj (spec.text.symm.trans stores.text))
      · intro same
        cases same
        exact spec

theorem fails_of_written {error : ActionError}
    (written : script.written interface edit before.text = .error error) :
    Fails script interface edit before error := by
  have spec := performed_change script interface edit before
  rw [written] at spec
  exact spec.1

/-- The text that an action leaves is the one before, or that of a change that it has stored. -/
theorem performed_text (script : Script) (dryRun : Bool) (interface : String) (action : Action)
    (before : Stage) :
    (performed script dryRun interface action before).2.text = before.text ∨
      ∃ edit text, action = .change edit ∧ script.Commits interface edit before.text text ∧
        (performed script dryRun interface action before).2.text = some text := by
  obtain ⟨made, result, left, course, makes⟩ :=
    perform_course script dryRun interface action before
  have leaves : (performed script dryRun interface action before).2.text = left := makes.text
  rw [leaves]
  rcases course.stores with kept | ⟨edit, text, isChange, _, _, commits, stored⟩
  · exact Or.inl kept
  · exact Or.inr ⟨edit, text, isChange, commits, stored⟩

/-! ## Loading what was stored -/

theorem loadFailure_eq_none {stored : Option String}
    (loads : script.loaded interface stored = .ok document) : script.loadFailure = none := by
  unfold Script.loaded at loads
  split at loads
  · cases loads
  next unfailing => exact unfailing
  next unfailing => exact unfailing

/-- The stored text is that of the document. -/
def Holds (interface : String) (stored : Option String) (document : Document) : Prop :=
  ∃ text, stored = some text ∧ (Document.parse interface text).value = .ok document

theorem Holds.loaded {stored : Option String} {other : Document}
    (holds : Holds interface stored document) (loads : script.loaded interface stored = .ok other) :
    other = document := by
  obtain ⟨text, rfl, parses⟩ := holds
  unfold Script.loaded at loads
  split at loads
  · cases loads
  · contradiction
  next same =>
    cases same
    exact Except.ok.inj ((mapError_eq_ok loads).symm.trans parses)

/-- A changed document that was stored is loaded again. -/
theorem holds_of_commits (commits : script.Commits interface edit before.text text)
    (back : ∀ document, script.changed interface edit before.text = .ok document →
      document.toTree.ReadsBack) :
    ∃ document, script.changed interface edit before.text = .ok document ∧
      document.render = .ok text ∧ Holds interface (some text) document := by
  obtain ⟨document, changes, _, renders⟩ := commits
  obtain ⟨rfl, sound⟩ := (Script.changed_reachable changes).sound
  have parses := Document.parse_render sound renders (back document changes)
  exact ⟨document, changes, renders, text, rfl, congrArg Logged.value parses⟩

/-! ## Runs of actions -/

/-- An action is performed on a stage, whatever fails in it. The text of a changed document is
assumed to read back. -/
inductive Turn (interface : String) (before : Stage) (action : Action) : Stage → Prop
  | performed (script : Script) (dryRun : Bool) :
    (∀ edit document, action = .change edit →
      script.changed interface edit before.text = .ok document → document.toTree.ReadsBack) →
    Turn interface before action (performed script dryRun interface action before).2

/-- Actions are performed one after the other, each with failures of its own. -/
inductive Run (interface : String) (start : Stage) : List Action → Stage → Prop
  | nil : Run interface start [] start
  | turn {actions : List Action} {action : Action} {before after : Stage} :
    Run interface start actions before → Turn interface before action after →
    Run interface start (actions ++ [action]) after

/-- After an action that does not start over, a document is stored that differs from the one before
in what the action is about. -/
theorem Turn.amends (turn : Turn interface before action after)
    (holds : Holds interface before.text document) (stays : action.startsOver = false) :
    ∃ next, Holds interface after.text next ∧ document.Preserves next ∧
      ∀ edit, action = .change edit → document.Amends edit next := by
  obtain ⟨script, dryRun, back⟩ := turn
  rcases performed_text script dryRun interface action before with kept | ⟨edit, text, isChange,
    commits, stored⟩
  · rw [kept]
    exact ⟨document, holds, .refl document, fun edit _ => .refl edit document⟩
  · subst isChange
    obtain ⟨next, changes, _, holdsNext⟩ :=
      holds_of_commits commits fun document changes => back edit document rfl changes
    unfold Script.changed at changes
    split at changes
    · cases changes
    next loaded loads =>
      cases holds.loaded loads
      have amends := Document.apply_amends stays (mapError_eq_ok changes)
      rw [stored]
      refine ⟨next, holdsNext, amends.toPreserves, fun other same => ?_⟩
      cases same
      exact amends

/-- Actions that do not start over preserve all of the stored document but its gateways and routes,
whatever fails in them. After each of them a document is stored, and the next one changes of it only
what it is about. -/
theorem Run.preserves (run : Run interface start actions stage) {initial : Document}
    (holds : Holds interface start.text initial)
    (stay : ∀ action ∈ actions, action.startsOver = false) :
    ∃ document, Holds interface stage.text document ∧ initial.Preserves document ∧
      ∀ action after, action.startsOver = false → Turn interface stage action after →
        ∃ next, Holds interface after.text next ∧
          ∀ edit, action = .change edit → document.Amends edit next := by
  suffices kept : ∃ document, Holds interface stage.text document ∧ initial.Preserves document by
    obtain ⟨document, holds, preserves⟩ := kept
    refine ⟨document, holds, preserves, fun action after stays turn => ?_⟩
    obtain ⟨next, holdsNext, _, amends⟩ := turn.amends holds stays
    exact ⟨next, holdsNext, amends⟩
  induction run with
  | nil => exact ⟨initial, holds, .refl initial⟩
  | turn _ turn ih =>
      obtain ⟨document, holds, preserves⟩ :=
        ih fun action member => stay action (List.mem_append_left _ member)
      obtain ⟨next, holdsNext, later, _⟩ :=
        turn.amends holds (stay _ (List.mem_append_right _ (List.mem_singleton.mpr rfl)))
      exact ⟨next, holdsNext, preserves.trans later⟩

/-- A document in an older spelling, with a key of its own. -/
def inherited : Stage where
  text := "network:\n  version: 2\n  ethernets:\n    eth0:\n      dhcp4: yes\n      mtu: 9000\n"

/-- Generate fails, whatever is stored. -/
def refusing : Script where
  phase := fun phase => .ok ⟨phase, some 1, "", ""⟩

/-- Nothing can be saved. -/
def unsaving : Script := { refusing with saveFailure := some (.notWritten "eth0.yaml" .absent) }

/-- Routes have been removed where there were none. -/
def unrouted : Stage :=
  (performed refusing false "eth0" (.change (.setRoute "remove6")) inherited).2

theorem unrouted_text : unrouted.text = some ("network:\n  version: 2\n  ethernets:\n    eth0:\n" ++
    "      dhcp4: true\n      routes: []\n      mtu: 9000\n") := by
  decide +kernel

/-- The text of the changed document is written and read to see that it reads back. -/
theorem back_of_check {stored : Option String}
    (check : ((script.changed interface edit stored).toOption.all fun document =>
      document.toTree.render?.all document.toTree.isMeantBy) = true) :
    ∀ document, script.changed interface edit stored = .ok document →
      document.toTree.ReadsBack := by
  intro document changes
  rw [changes] at check
  exact .of_check check

theorem unrouted_back : ∀ document,
    refusing.changed "eth0" (.setRoute "remove6") inherited.text = .ok document →
      document.toTree.ReadsBack :=
  back_of_check (by decide +kernel)

/-- Routes are removed, which cannot be put into effect, and then a gateway is not saved. The flag
and the key are what they were. -/
theorem Run.preserves_flag :
    ∃ stage document,
      Run "eth0" inherited
        [.change (.setRoute "remove6"), .change (.setGateway ["fe80::1"])] stage ∧
      Holds "eth0" stage.text document ∧ document.entry.dhcp4 = some true ∧
      document.entry.extra.names = ["mtu"] := by
  have route : Turn "eth0" inherited (.change (.setRoute "remove6")) unrouted := by
    refine .performed refusing false fun edit document same => ?_
    cases same
    exact unrouted_back document
  have gatewayBack : ∀ document,
      unsaving.changed "eth0" (.setGateway ["fe80::1"]) unrouted.text = .ok document →
        document.toTree.ReadsBack := by
    rw [unrouted_text]
    exact back_of_check (by decide +kernel)
  have gateway : Turn "eth0" unrouted (.change (.setGateway ["fe80::1"]))
      (performed unsaving false "eth0" (.change (.setGateway ["fe80::1"])) unrouted).2 := by
    refine .performed unsaving false fun edit document same => ?_
    cases same
    exact gatewayBack document
  have run := (Run.nil.turn route).turn gateway
  have found : ((Document.parse "eth0" (inherited.text.getD "")).value.toOption.map
      fun document => (document.entry.dhcp4, document.entry.extra.names)) =
        some (some true, ["mtu"]) := by decide +kernel
  cases parses : (Document.parse "eth0" (inherited.text.getD "")).value with
  | error cause =>
      rw [parses] at found
      cases found
  | ok initial =>
      rw [parses] at found
      have same := Option.some.inj found
      obtain ⟨document, holds, preserves, _⟩ :=
        run.preserves ⟨_, rfl, parses⟩ (by decide)
      refine ⟨_, document, run, holds, ?_, ?_⟩
      · rw [preserves.dhcp4]
        exact congrArg Prod.fst same
      · rw [preserves.extra]
        exact congrArg Prod.snd same

/-! ## Starting over -/

/-- A change that starts over carries nothing along that could not be written. -/
theorem stores_of_startsOver (loads : script.loaded interface before.text = .ok document)
    (unfailing : script.saveFailure = none) (startsOver : edit.startsOver = true)
    {fresh : Document} (ok : (edit.apply document).value = .ok fresh) :
    ∃ text, fresh.render = .ok text ∧ Stores script interface edit before text := by
  obtain ⟨extra, sections⟩ := Document.apply_fresh startsOver ok
  have writable : AllWritable fresh.entry.extra ∧ AllWritable fresh.sections := by
    rw [extra, sections]
    exact ⟨fun _ none => (by cases none), fun _ none => (by cases none)⟩
  obtain ⟨text, renders⟩ := fresh.render_isOk.mpr writable
  refine ⟨text, renders, stores_iff.mpr (Script.written_eq_ok.mpr ⟨fresh, ?_, unfailing, renders⟩)⟩
  rw [Script.changed, loads]
  dsimp only
  rw [ok]
  rfl

theorem fails_of_apply (loads : script.loaded interface before.text = .ok document)
    {error : EditError} (fails : (edit.apply document).value = .error error) :
    Fails script interface edit before (.edit error) := by
  refine fails_of_written ?_
  rw [Script.written, Script.changed, loads]
  dsimp only
  rw [fails]
  rfl

/-- Two changes that start over and come to the same store the same text, or fail alike. -/
theorem same_of_apply {other : Stage} {otherDocument : Document} {otherEdit : Edit}
    (loads : first.loaded interface before.text = .ok document)
    (otherLoads : second.loaded interface other.text = .ok otherDocument)
    (unfailing : first.saveFailure = none) (otherUnfailing : second.saveFailure = none)
    (startsOver : edit.startsOver = true) (otherStartsOver : otherEdit.startsOver = true)
    (same : (otherEdit.apply otherDocument).value = (edit.apply document).value) :
    (∃ error, (edit.apply document).value = .error error ∧
      Fails first interface edit before (.edit error) ∧
      Fails second interface otherEdit other (.edit error)) ∨
    ∃ text, Stores first interface edit before text ∧
      Stores second interface otherEdit other text := by
  cases applied : (edit.apply document).value with
  | error error =>
      rw [applied] at same
      exact Or.inl ⟨error, rfl, fails_of_apply loads applied, fails_of_apply otherLoads same⟩
  | ok fresh =>
      rw [applied] at same
      obtain ⟨text, renders, stores⟩ := stores_of_startsOver loads unfailing startsOver applied
      obtain ⟨otherText, otherRenders, otherStores⟩ :=
        stores_of_startsOver otherLoads otherUnfailing otherStartsOver same
      cases renders.symm.trans otherRenders
      exact Or.inr ⟨text, stores, otherStores⟩

/-- An action that starts over takes nothing from what was stored before, as long as that can be
loaded: it stores the same text, or fails with the same error and leaves what was stored. Neither
order nor repetition of protocols and options matters, nor what is none of them. -/
theorem starting_over_independent {other : Stage} {otherDocument : Document}
    (loads : first.loaded interface before.text = .ok document)
    (otherLoads : second.loaded interface other.text = .ok otherDocument)
    (unfailing : first.saveFailure = none) (otherUnfailing : second.saveFailure = none) :
    (∀ protocols others : String,
      (∀ family : Family, family.digit ∈ protocols.toList ↔ family.digit ∈ others.toList) →
      ∃ text, Stores first interface (.setDhcp protocols) before text ∧
        Stores second interface (.setDhcp others) other text) ∧
    ∀ tokens otherTokens options otherOptions : List String,
      tokens.filter Document.isAddressToken = otherTokens.filter Document.isAddressToken →
      (∀ family : Family, family.dhcpOption ∈ options ↔ family.dhcpOption ∈ otherOptions) →
      (∃ cause : AddressError,
        Fails first interface (.setIp tokens options) before (.edit (.address cause)) ∧
        Fails second interface (.setIp otherTokens otherOptions) other (.edit (.address cause))) ∨
      ∃ text, Stores first interface (.setIp tokens options) before text ∧
        Stores second interface (.setIp otherTokens otherOptions) other text := by
  have sameInterface : otherDocument.interface = document.interface :=
    (Script.loaded_reachable otherLoads).sound.1.trans (Script.loaded_reachable loads).sound.1.symm
  constructor
  · intro protocols others digits
    have same : ((Edit.setDhcp others).apply otherDocument).value =
        ((Edit.setDhcp protocols).apply document).value :=
      congrArg Except.ok (Document.setDhcp_congr sameInterface fun family => (digits family).symm)
    refine (same_of_apply loads otherLoads unfailing otherUnfailing rfl rfl same).resolve_left ?_
    rintro ⟨error, none, _⟩
    cases none
  · intro tokens otherTokens options otherOptions addresses known
    have same : ((Edit.setIp otherTokens otherOptions).apply otherDocument).value =
        ((Edit.setIp tokens options).apply document).value :=
      congrArg (Except.mapError EditError.address)
        (Document.setIp_congr sameInterface addresses.symm fun family => (known family).symm)
    refine (same_of_apply loads otherLoads unfailing otherUnfailing rfl rfl same).imp_left ?_
    rintro ⟨error, fails, failsFirst, failsSecond⟩
    obtain ⟨cause, _, rfl⟩ := mapError_eq_error fails
    exact ⟨cause, failsFirst, failsSecond⟩

/-- It makes no difference whether nothing is stored or a document of another kind. -/
theorem starting_over_independent_inherited :
    (∃ text, Stores refusing "eth0" (.setDhcp "46") {} text ∧
      Stores refusing "eth0" (.setDhcp "6x4") inherited text) ∧
    ∃ text, Stores refusing "eth0" (.setIp ["remove", "10.0.0.2/24"] ["dhcp6", "x"]) {} text ∧
      Stores refusing "eth0" (.setIp ["10.0.0.2/24", "remove6"] ["dhcp6", "dhcp6"]) inherited
        text := by
  have loads : (refusing.loaded "eth0" inherited.text).isOk = true := by decide +kernel
  have passes : passedSave (performed refusing false "eth0"
      (.change (.setIp ["remove", "10.0.0.2/24"] ["dhcp6", "x"])) {}).1 = true := by decide +kernel
  cases loaded : refusing.loaded "eth0" inherited.text with
  | error cause =>
      rw [loaded] at loads
      cases loads
  | ok document =>
      have skeleton : refusing.loaded "eth0" ({} : Stage).text = .ok (.skeleton "eth0") := rfl
      obtain ⟨protocols, addresses⟩ := starting_over_independent skeleton loaded rfl rfl
      refine ⟨protocols "46" "6x4" fun family => by cases family <;> decide, ?_⟩
      refine (addresses ["remove", "10.0.0.2/24"] ["10.0.0.2/24", "remove6"] ["dhcp6", "x"]
        ["dhcp6", "dhcp6"] (by decide) fun family => by cases family <;> decide).resolve_left ?_
      rintro ⟨cause, fails, _⟩
      rw [fails.result] at passes
      cases passes

/-! ## Performing a change again -/

/-- On the document that it has stored, a change gives that document again. -/
theorem changed_again {stored later : Option String}
    (changes : script.changed interface edit stored = .ok document)
    (holds : Holds interface later document) :
    script.changed interface edit later = .ok document := by
  obtain ⟨text, rfl, parses⟩ := holds
  unfold Script.changed at changes ⊢
  split at changes
  · cases changes
  next before loads =>
    have loadsAgain : script.loaded interface (some text) = .ok document := by
      unfold Script.loaded
      rw [loadFailure_eq_none loads]
      exact congrArg (Except.mapError _) parses
    rw [loadsAgain]
    dsimp only
    rw [Document.apply_again (mapError_eq_ok changes)]
    rfl

/-- A change that is made again, on what it has stored, stores the same text again. If the second
save fails the text stays; loading and the change do not fail. -/
theorem stores_again (stores : Stores script interface edit before text)
    (back : ∀ document, script.changed interface edit before.text = .ok document →
      document.toTree.ReadsBack)
    (saveFailure : Option SaveError) (phase : Phase → Except ReconcileError PhaseOutput) :
    let after := (performed script false interface (.change edit) before).2
    match saveFailure with
    | none => Stores { script with saveFailure, phase } interface edit after text
    | some cause =>
      Fails { script with saveFailure, phase } interface edit after (.save cause) ∧
        after.text = some text := by
  obtain ⟨document, changes, renders, holds⟩ :=
    holds_of_commits (Script.written_eq_ok.mp (stores_iff.mp stores)) back
  have again : ({ script with saveFailure, phase } : Script).changed interface edit
      (performed script false interface (.change edit) before).2.text = .ok document := by
    rw [stores.text]
    exact changed_again changes holds
  intro after
  cases saveFailure with
  | none => exact stores_iff.mpr (Script.written_eq_ok.mpr ⟨document, again, rfl, renders⟩)
  | some cause =>
      refine ⟨fails_of_written ?_, stores.text⟩
      rw [Script.written, again]
      rfl

/-- Removing routes where there are none leaves an empty list, which it leaves again. -/
theorem stores_again_unrouted :
    ∃ text, Stores refusing "eth0" (.setRoute "remove6") inherited text ∧
      Stores { phase := fun phase => .ok ⟨phase, some 0, "", ""⟩ } "eth0" (.setRoute "remove6")
        unrouted text := by
  have kept := unrouted_text
  unfold unrouted at kept ⊢
  have stores : Stores refusing "eth0" (.setRoute "remove6") inherited _ :=
    ⟨by decide +kernel, kept⟩
  have again := stores_again stores unrouted_back none fun phase => .ok ⟨phase, some 0, "", ""⟩
  dsimp only at again
  exact ⟨_, stores, again⟩

end Rehearsal

end NetplanEditor
