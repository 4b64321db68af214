import NetplanEditor.Proofs.Engine.Stored

/-!
# What is answered about DHCP

An engine that changes documents for good answers a question about DHCP by what was written last.
`Session` is a run of such an engine whose store can be read: saves and phases fail as they like.
`told` goes through what has been done and finds the last change that started over and was saved; its
protocols or options are the answer, even if it could not be put into effect. Where there is none,
the document of the start is the answer. `Session.answers` says that the engine answers so, and that
it always finds a document to answer from.
-/

namespace NetplanEditor

/-- What a change makes of the DHCP of each family, if it starts over; the other changes leave it as
it is. -/
def Edit.dhcp? : Edit → Option (Family → DhcpState)
  | .setDhcp protocols => some fun family =>
    if family.digit ∈ protocols.toList then .enabled else .unset
  | .setIp _ options => some fun family =>
    if family.dhcpOption ∈ options then .enabled else .disabled
  | .setGateway _ | .setRoute _ => none

theorem Entry.dhcp_switchOn (entry : Entry) (asked : Family → Bool) (family : Family) :
    DhcpState.ofFlag ((entry.switchOn asked).dhcp family) =
      if asked family then .enabled else .ofFlag (entry.dhcp family) := by
  cases family with
  | v4 => cases on : asked .v4 <;> simp [Entry.switchOn, Entry.dhcp, on, DhcpState.ofFlag]
  | v6 => cases on : asked .v6 <;> simp [Entry.switchOn, Entry.dhcp, on, DhcpState.ofFlag]

namespace Document

/-- A change that starts over decides on DHCP, and no other change touches it. -/
theorem apply_dhcp {document after : Document} {edit : Edit}
    (ok : (edit.apply document).value = .ok after) :
    after.dhcpState = edit.dhcp?.getD document.dhcpState := by
  funext family
  cases edit with
  | setDhcp protocols =>
      have same : (document.setDhcp protocols).value = after := Except.ok.inj ok
      rw [setDhcp_value] at same
      subst same
      have off : DhcpState.ofFlag (Entry.empty.dhcp family) = .unset := by cases family <;> rfl
      rw [dhcpState, Entry.dhcp_switchOn, off]
      simp [Edit.dhcp?]
  | setIp tokens options =>
      have same := mapError_eq_ok ok
      rw [setIp_value] at same
      obtain ⟨addresses, _, rfl⟩ := map_eq_ok same
      have off : DhcpState.ofFlag (({ addresses, dhcp4 := some false, dhcp6 := some false } :
          Entry).dhcp family) = .disabled := by cases family <;> rfl
      rw [dhcpState, Entry.dhcp_switchOn, off]
      simp [Edit.dhcp?]
  | setGateway tokens =>
      have stays : (Edit.setGateway tokens).startsOver = false := rfl
      have amends := apply_amends stays ok
      cases family with
      | v4 => exact congrArg DhcpState.ofFlag amends.dhcp4
      | v6 => exact congrArg DhcpState.ofFlag amends.dhcp6
  | setRoute token =>
      have stays : (Edit.setRoute token).startsOver = false := rfl
      have amends := apply_amends stays ok
      cases family with
      | v4 => exact congrArg DhcpState.ofFlag amends.dhcp4
      | v6 => exact congrArg DhcpState.ofFlag amends.dhcp6

end Document

namespace Rehearsal

variable {script : Script} {interface : String} {before start stage : Stage} {action : Action}
  {document initial : Document}

/-! ## Actions that were performed -/

/-- An action, and how it ended. -/
structure Done where
  action : Action
  result : Except ActionError Outcome

/-- What an action decides about DHCP: a change that starts over does, if it was saved, and nothing
else does. -/
def Done.decides? (done : Done) : Option (Family → DhcpState) :=
  match done.action with
  | .change edit => if passedSave done.result then edit.dhcp? else none
  | .getDhcp _ | .restart => none

theorem Done.decides?_of_passed {edit : Edit} {result : Except ActionError Outcome}
    (passed : passedSave result = true) : Done.decides? ⟨.change edit, result⟩ = edit.dhcp? :=
  if_pos passed

/-- What is to be answered after the actions: what was decided last, or else what the document of the
start says. -/
def told (initial : Document) (done : List Done) : Family → DhcpState :=
  (done.filterMap Done.decides?).getLast?.getD initial.dhcpState

/-- An action that decides nothing leaves the answer as it was. -/
theorem told_concat (initial : Document) (done : List Done) (last : Done) :
    told initial (done ++ [last]) = last.decides?.getD (told initial done) := by
  unfold told
  rw [List.filterMap_append]
  cases decided : last.decides? with
  | none => simp [decided]
  | some answer => simp [decided]

/-- What is found for an interface where the store can be read: the skeleton, if nothing is stored. -/
def Finds (interface : String) (stored : Option String) (document : Document) : Prop :=
  match stored with
  | none => document = .skeleton interface
  | some text => (Document.parse interface text).value = .ok document

theorem Finds.loaded {stored : Option String} (finds : Finds interface stored document)
    (readable : script.loadFailure = none) : script.loaded interface stored = .ok document := by
  unfold Script.loaded
  rw [readable]
  cases stored with
  | none => exact congrArg Except.ok (Eq.symm finds)
  | some text =>
      have parses : (Document.parse interface text).value = .ok document := finds
      dsimp only
      rw [parses]
      rfl

theorem Holds.finds {stored : Option String} (holds : Holds interface stored document) :
    Finds interface stored document := by
  obtain ⟨text, rfl, parses⟩ := holds
  exact parses

/-! ## One action -/

/-- An action finds the document, answers from it, and leaves one that says what the action decides,
or else what the document did. -/
theorem performed_answers (readable : script.loadFailure = none)
    (finds : Finds interface before.text document)
    (back : ∀ edit document, action = .change edit →
      script.changed interface edit before.text = .ok document → document.toTree.ReadsBack) :
    let done : Done := ⟨action, (performed script false interface action before).1⟩
    (∀ cause, done.result ≠ .error (.load cause)) ∧
    (∀ family, action = .getDhcp family → done.result = .ok (.dhcp (document.dhcpState family))) ∧
    ∃ next, Finds interface (performed script false interface action before).2.text next ∧
      next.dhcpState = done.decides?.getD document.dhcpState := by
  have loads := finds.loaded readable
  obtain ⟨made, result, left, course, makes⟩ :=
    perform_course script false interface action before
  have ends : (performed script false interface action before).1 = result := makes.value
  have leaves : (performed script false interface action before).2.text = left := makes.text
  dsimp only
  rw [ends, leaves]
  cases course with
  | unanswered fails => cases fails.symm.trans loads
  | answered others =>
      cases others.symm.trans loads
      refine ⟨fun cause => (by simp), fun family same => ?_, document, finds, rfl⟩
      cases same
      rfl
  | skipped dry => cases dry
  | @restarted _ ended _ _ =>
      refine ⟨fun cause => ?_, fun family same => (by cases same), document, finds, rfl⟩
      cases ended <;> simp [reconciled]
  | @unchanged edit error fails =>
      have isEdit : ∃ cause, error = .edit cause := by
        rw [Script.changed, loads] at fails
        obtain ⟨cause, _, same⟩ := mapError_eq_error fails
        exact ⟨cause, same.symm⟩
      obtain ⟨cause, rfl⟩ := isEdit
      exact ⟨fun cause => (by simp), fun family same => (by cases same), document, finds, rfl⟩
  | unrendered dry => cases dry
  | rendered dry => cases dry
  | unsaved =>
      exact ⟨fun cause => (by simp), fun family same => (by cases same), document, finds, rfl⟩
  | @committed edit _ _ _ ended _ changes saves _ =>
      obtain ⟨unfailing, renders⟩ := Script.saved_eq_ok.mp saves
      obtain ⟨next, changed, _, holds⟩ := holds_of_commits ⟨_, changes, unfailing, renders⟩
        fun document changes => back edit document rfl changes
      rw [Script.changed, loads] at changed
      refine ⟨fun cause => ?_, fun family same => (by cases same), next, holds.finds, ?_⟩
      · cases ended <;> simp [reconciled]
      · rw [Done.decides?_of_passed (passedSave_reconciled ended)]
        exact Document.apply_dhcp (mapError_eq_ok changed)

/-! ## Runs of actions -/

/-- Actions are performed one after the other by an engine that saves and applies what it changes.
Each has failures of its own, but the store can be read. The text of a changed document is assumed
to read back. -/
inductive Session (interface : String) (start : Stage) : List Done → Stage → Prop
  | nil : Session interface start [] start
  | turn {done : List Done} {before : Stage} (script : Script) (action : Action) :
    Session interface start done before → script.loadFailure = none →
    (∀ edit document, action = .change edit →
      script.changed interface edit before.text = .ok document → document.toTree.ReadsBack) →
    Session interface start
      (done ++ [⟨action, (performed script false interface action before).1⟩])
      (performed script false interface action before).2

/-- In a session no load fails, every question about DHCP is answered by what was written last, and
at its end a document is found that says so. -/
theorem Session.answers {done : List Done} (session : Session interface start done stage)
    (finds : Finds interface start.text initial) :
    (∀ turn ∈ done, ∀ cause, turn.result ≠ .error (.load cause)) ∧
    (∀ earlier family result later, done = earlier ++ ⟨.getDhcp family, result⟩ :: later →
      result = .ok (.dhcp (told initial earlier family))) ∧
    ∃ document, Finds interface stage.text document ∧ document.dhcpState = told initial done := by
  induction session with
  | nil =>
      refine ⟨fun turn none => (List.not_mem_nil none).elim, ?_, initial, finds, rfl⟩
      intro earlier family result later none
      simp at none
  | @turn done before script action _ readable back ih =>
      obtain ⟨load, answer, document, finds, tells⟩ := ih
      obtain ⟨loadNow, answerNow, next, findsNext, tellsNext⟩ :=
        performed_answers readable finds back
      refine ⟨?_, ?_, next, findsNext, ?_⟩
      · intro turn member
        rcases List.mem_append.mp member with old | new
        · exact load turn old
        · rw [List.mem_singleton.mp new]
          exact loadNow
      · intro earlier family result later split
        -- The question is the last action, or one of those before it.
        rcases List.eq_nil_or_concat later with rfl | ⟨between, last, rfl⟩
        · obtain ⟨rfl, same⟩ := List.append_inj' split rfl
          obtain ⟨rfl, rfl⟩ := Done.mk.inj (List.singleton_inj.mp same)
          rw [← tells]
          exact answerNow family rfl
        · rw [List.concat_eq_append, ← List.cons_append, ← List.append_assoc] at split
          exact answer earlier family result between (List.append_inj' split rfl).1
      · rw [tellsNext, tells, told_concat]

/-- A static address is not saved, and then DHCP is switched to the other family, which cannot be put
into effect. The flag that stood in the text of the start is gone. -/
theorem Session.answers_unset :
    ∃ initial done stage, Finds "eth0" inherited.text initial ∧
      initial.dhcpState .v4 = .enabled ∧ Session "eth0" inherited done stage ∧
      done.map (·.action) = [.change (.setIp ["192.0.2.2/24"] ["dhcp"]), .change (.setDhcp "6"),
        .getDhcp .v4] ∧
      done.getLast?.map (·.result) = some (.ok (.dhcp .unset)) := by
  let address : Edit := .setIp ["192.0.2.2/24"] ["dhcp"]
  let switch : Edit := .setDhcp "6"
  have kept : (performed unsaving false "eth0" (.change address) inherited).2.text =
      inherited.text := by decide +kernel
  have saved : Stores refusing "eth0" switch
      (performed unsaving false "eth0" (.change address) inherited).2
      "network:\n  version: 2\n  ethernets:\n    eth0:\n      dhcp6: true\n" := by
    rw [stores_iff, kept]
    decide +kernel
  have begins : Session "eth0" inherited [] inherited := .nil
  have first := begins.turn unsaving
    (.change address) rfl fun edit document same => by
      cases same
      exact back_of_check (by decide +kernel) document
  have second := first.turn refusing (.change switch) rfl fun edit document same => by
      cases same
      rw [kept]
      exact back_of_check (by decide +kernel) document
  have third := second.turn refusing (.getDhcp .v4) rfl fun edit document same => by cases same
  have found : ((Document.parse "eth0" (inherited.text.getD "")).value.toOption.map
      fun document => document.dhcpState .v4) = some .enabled := by decide +kernel
  cases parses : (Document.parse "eth0" (inherited.text.getD "")).value with
  | error cause =>
      rw [parses] at found
      cases found
  | ok initial =>
      rw [parses] at found
      have finds : Finds "eth0" inherited.text initial := parses
      have answered := (third.answers finds).2.1 _ .v4 _ [] rfl
      rw [told_concat, Done.decides?_of_passed saved.passed] at answered
      refine ⟨initial, _, _, finds, Option.some.inj found, third, ?_, ?_⟩
      · simp only [List.map_cons, List.map_nil, List.nil_append, List.cons_append, address, switch]
      · rw [List.getLast?_concat, Option.map_some, answered]
        rfl

end Rehearsal

end NetplanEditor
