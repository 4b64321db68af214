import NetplanEditor.Action
import NetplanEditor.Document.Read
import NetplanEditor.Proofs.Yaml.Fields

/-!
# What a document carries along

A document carries keys that it does not manage, in the entry of its interface and beside it. Every
document that can come about keeps them apart from its own keys, in strict order, and free of
repeated keys within (`Document.Sound`): reading only carries a key that is none of its own, and an
edit keeps all of them or drops all of them. This is what makes the two kinds of keys fit into one
map of the text without getting into each other's way.
-/

namespace NetplanEditor

open Yaml (Fault Node Tree readRecord readRecord_run readOnce_eq_ok require_eq_ok)

/-- The keys of an entry that the document manages. -/
def Entry.managedKeys : List String :=
  ["addresses", "gateway4", "gateway6", "dhcp4", "dhcp6", "routes"]

/-- The keys of a network that the document manages. -/
def Network.managedKeys : List String := ["version", "renderer", "ethernets"]

/-- Values that can be carried along beside managed keys. -/
structure Carried (managed : List String) (fields : Named Tree) : Prop where
  sorted : fields.Sorted
  unmanaged : ∀ field ∈ fields, field.1 ∉ managed
  distinct : ∀ field ∈ fields, field.2.keysDistinct = true

theorem Carried.nil (managed : List String) : Carried managed [] :=
  ⟨Named.sorted_nil, fun _ member => (List.not_mem_nil member).elim,
    fun _ member => (List.not_mem_nil member).elim⟩

/-- All that the document carries can be carried beside its own keys. -/
structure Document.Sound (document : Document) : Prop where
  extra : Carried Entry.managedKeys document.entry.extra
  sections : Carried Network.managedKeys document.sections

/-- The documents that come about: the skeleton, what a text holds, and what edits make of them. -/
inductive Document.Reachable (interface : String) : Document → Prop
  | skeleton : Document.Reachable interface (.skeleton interface)
  | parsed {text : String} {document : Document} :
    (Document.parse interface text).value = .ok document → Document.Reachable interface document
  | edited {document after : Document} {edit : Edit} :
    Document.Reachable interface document → (edit.apply document).value = .ok after →
    Document.Reachable interface after

/-! ## Reading -/

/-- What every step of a record keeps, the whole record keeps. -/
theorem readRecord_inv {σ : Type} {step : σ → String → Node → Except Fault σ} {P : σ → Prop}
    (keeps : ∀ {state key value after}, P state → step state key value = .ok after → P after)
    {entries : List (Node × Node)} {state after : σ} (start : P state)
    (reads : readRecord step state entries = .ok after) : P after :=
  readRecord_run (P := fun state _ => P state) keeps start reads

/-- Carrying one more value under a key that is not managed. -/
theorem carry_unmanaged {managed : List String} {values after : List (String × Tree)}
    {key : String} {value : Node} (before : ∀ field ∈ values, field.1 ∉ managed)
    (free : key ∉ managed) (carries : carry values key value = .ok after) :
    ∀ field ∈ after, field.1 ∉ managed := by
  obtain ⟨tree, _, rfl⟩ := map_eq_ok carries
  intro field member
  rcases List.mem_append.mp member with old | new
  · exact before field old
  · rw [List.mem_singleton.mp new]
    exact free

/-- What is carried in the end has all its names in strict order and distinct keys within. -/
theorem carried_sound {managed : List String} {values : List (String × Tree)} {fields : Named Tree}
    (unmanaged : ∀ field ∈ values, field.1 ∉ managed) (ok : carried values = .ok fields) :
    Carried managed fields := by
  unfold carried at ok
  split at ok
  next distinct =>
    cases ok
    obtain ⟨sorted, origin⟩ := Named.foldl_put_inv values Named.sorted_nil
    have ofValues : ∀ field ∈ values.foldl
        (fun (done : Named Tree) field => done.put field.1 field.2) [], field ∈ values :=
      fun field member => (origin field member).resolve_left List.not_mem_nil
    refine ⟨sorted, fun field member => unmanaged field (ofValues field member),
      fun field member => ?_⟩
    exact List.all_eq_true.mp distinct field (ofValues field member)
  next => cases ok

theorem EntryDraft.step_unmanaged {draft after : EntryDraft} {key : String} {value : Node}
    (before : ∀ field ∈ draft.extra, field.1 ∉ Entry.managedKeys)
    (step : draft.step key value = .ok after) :
    ∀ field ∈ after.extra, field.1 ∉ Entry.managedKeys := by
  unfold EntryDraft.step at step
  split at step
  case h_7 noAddresses noGateway4 noGateway6 noDhcp4 noDhcp6 noRoutes =>
    obtain ⟨extra, carries, rfl⟩ := map_eq_ok step
    refine carry_unmanaged before ?_ carries
    simp only [Entry.managedKeys, List.mem_cons, List.not_mem_nil, or_false, not_or]
    exact ⟨noAddresses, noGateway4, noGateway6, noDhcp4, noDhcp6, noRoutes⟩
  all_goals
    obtain ⟨field, _, rfl⟩ := map_eq_ok step
    exact before

/-- An entry that was read carries only what is none of its own keys. -/
theorem Entry.ofNode_carried {node : Node} {entry : Entry} (reads : Entry.ofNode node = .ok entry) :
    Carried Entry.managedKeys entry.extra := by
  unfold Entry.ofNode at reads
  obtain ⟨entries, _, reads⟩ := bind_eq_ok reads
  obtain ⟨draft, record, reads⟩ := bind_eq_ok reads
  obtain ⟨extra, carries, reads⟩ := bind_eq_ok reads
  cases reads
  refine carried_sound ?_ carries
  exact readRecord_inv (P := fun draft : EntryDraft =>
    ∀ field ∈ draft.extra, field.1 ∉ Entry.managedKeys) EntryDraft.step_unmanaged
    (fun _ member => (List.not_mem_nil member).elim) record

theorem NetworkDraft.step_unmanaged {draft after : NetworkDraft} {key : String} {value : Node}
    (before : ∀ field ∈ draft.sections, field.1 ∉ Network.managedKeys)
    (step : draft.step key value = .ok after) :
    ∀ field ∈ after.sections, field.1 ∉ Network.managedKeys := by
  unfold NetworkDraft.step at step
  split at step
  case h_4 noVersion noRenderer noEthernets =>
    obtain ⟨sections, carries, rfl⟩ := map_eq_ok step
    refine carry_unmanaged before ?_ carries
    simp only [Network.managedKeys, List.mem_cons, List.not_mem_nil, or_false, not_or]
    exact ⟨noVersion, noRenderer, noEthernets⟩
  all_goals
    obtain ⟨field, _, rfl⟩ := map_eq_ok step
    exact before

/-- Every entry among those of the interfaces carries only what is none of its own keys. -/
def EthernetsSound (ethernets : Named (Option Entry)) : Prop :=
  ∀ field ∈ ethernets, ∀ entry, field.2 = some entry → Carried Entry.managedKeys entry.extra

theorem readEthernet_sound {ethernets after : Named (Option Entry)} {name : String} {value : Node}
    (before : EthernetsSound ethernets) (step : readEthernet ethernets name value = .ok after) :
    EthernetsSound after := by
  obtain ⟨entry, reads, rfl⟩ := map_eq_ok step
  intro field member inner same
  rcases Named.mem_put member with rfl | old
  · subst same
    rcases Node.optional_eq_ok reads with ⟨_, none⟩ | ⟨found, _, ofNode, there⟩
    · cases none
    · cases there
      exact Entry.ofNode_carried ofNode
  · exact before field old inner same

theorem NetworkDraft.step_ethernets {draft after : NetworkDraft} {key : String} {value : Node}
    (before : EthernetsSound (draft.ethernets.getD []))
    (step : draft.step key value = .ok after) : EthernetsSound (after.ethernets.getD []) := by
  unfold NetworkDraft.step at step
  split at step
  case h_3 =>
    obtain ⟨field, once, rfl⟩ := map_eq_ok step
    obtain ⟨ethernets, reads, rfl⟩ := readOnce_eq_ok once
    obtain ⟨entries, _, record⟩ := bind_eq_ok reads
    exact readRecord_inv readEthernet_sound (fun _ member => (List.not_mem_nil member).elim) record
  all_goals
    obtain ⟨field, _, rfl⟩ := map_eq_ok step
    exact before

/-- A network that was read carries only what is none of its own keys, in all its entries too. -/
theorem Network.ofNode_sound {node : Node} {network : Network}
    (reads : Network.ofNode node = .ok network) :
    EthernetsSound network.ethernets ∧ Carried Network.managedKeys network.sections := by
  unfold Network.ofNode at reads
  obtain ⟨entries, _, reads⟩ := bind_eq_ok reads
  obtain ⟨draft, record, reads⟩ := bind_eq_ok reads
  obtain ⟨version, _, reads⟩ := bind_eq_ok reads
  obtain ⟨sections, carries, reads⟩ := bind_eq_ok reads
  cases reads
  refine ⟨?_, carried_sound ?_ carries⟩
  · exact readRecord_inv (P := fun draft : NetworkDraft => EthernetsSound (draft.ethernets.getD []))
      NetworkDraft.step_ethernets (fun _ member => (List.not_mem_nil member).elim) record
  · exact readRecord_inv (P := fun draft : NetworkDraft =>
      ∀ field ∈ draft.sections, field.1 ∉ Network.managedKeys) NetworkDraft.step_unmanaged
      (fun _ member => (List.not_mem_nil member).elim) record

theorem Network.ofRoot_sound {node : Node} {network : Network}
    (reads : Network.ofRoot node = .ok network) :
    EthernetsSound network.ethernets ∧ Carried Network.managedKeys network.sections := by
  unfold Network.ofRoot at reads
  obtain ⟨entries, _, reads⟩ := bind_eq_ok reads
  obtain ⟨seen, record, reads⟩ := bind_eq_ok reads
  have seenSound : ∀ network, seen = some network →
      EthernetsSound network.ethernets ∧ Carried Network.managedKeys network.sections := by
    refine readRecord_inv (P := fun seen : Option Network => ∀ network, seen = some network →
      EthernetsSound network.ethernets ∧ Carried Network.managedKeys network.sections) ?_
      (fun _ absent => by cases absent) record
    intro before key value after kept step
    unfold stepRoot at step
    split at step
    · obtain ⟨network, ofNode, rfl⟩ := readOnce_eq_ok step
      intro other same
      cases same
      exact Network.ofNode_sound ofNode
    · obtain ⟨_, _, rfl⟩ := map_eq_ok step
      exact kept
  exact seenSound network (require_eq_ok reads)

namespace Document

/-! ## Documents -/

/-- A document that a network describes is for the interface asked for and carries only what the
network does. -/
theorem ofNetwork_sound {interface : String} {network : Network} {document : Document}
    (ethernets : EthernetsSound network.ethernets)
    (sections : Carried Network.managedKeys network.sections)
    (ok : (ofNetwork interface network).value = .ok document) :
    document.interface = interface ∧ document.Sound := by
  unfold ofNetwork at ok
  split at ok
  · cases ok
  split at ok
  · cases ok
  split at ok
  next entry found =>
    cases ok
    refine ⟨rfl, ?_, sections⟩
    cases entry with
    | none => exact Carried.nil _
    | some entry =>
        obtain ⟨before, behind, same, _⟩ := List.lookup_eq_some_iff.mp found
        refine ethernets (interface, some entry) ?_ entry rfl
        rw [same]
        exact List.mem_append_right _ List.mem_cons_self
  next =>
    cases ok
    exact ⟨rfl, Carried.nil _, sections⟩

/-- A document that a text holds is for the interface asked for and carries only what is none of its
own keys. -/
theorem parse_sound {interface text : String} {document : Document}
    (ok : (parse interface text).value = .ok document) :
    document.interface = interface ∧ document.Sound := by
  unfold parse at ok
  split at ok
  · cases ok
  next network reads =>
    obtain ⟨node, ofRoot⟩ : ∃ node, Network.ofRoot node = .ok network := by
      unfold Yaml.readText at reads
      simp only at reads
      split at reads
      next value _ ofRoot _ =>
        cases reads
        exact ⟨_, ofRoot⟩
      · cases reads
      · cases reads
    obtain ⟨ethernets, sections⟩ := Network.ofRoot_sound ofRoot
    exact ofNetwork_sound ethernets sections ok

/-! ## Edits -/

/-- The second document is for the same interface and carries the same along as the first. -/
structure Carries (before after : Document) : Prop where
  interface : after.interface = before.interface
  extra : after.entry.extra = before.entry.extra
  sections : after.sections = before.sections

theorem Carries.refl (document : Document) : document.Carries document := ⟨rfl, rfl, rfl⟩

theorem Carries.trans {first second third : Document} (left : first.Carries second)
    (right : second.Carries third) : first.Carries third :=
  ⟨right.interface.trans left.interface, right.extra.trans left.extra,
    right.sections.trans left.sections⟩

theorem Sound.of_carries {before after : Document} (sound : before.Sound)
    (same : before.Carries after) : after.Sound :=
  ⟨same.extra ▸ sound.extra, same.sections ▸ sound.sections⟩

theorem skeleton_sound (interface : String) : (skeleton interface).Sound :=
  ⟨Carried.nil _, Carried.nil _⟩

theorem withGateway_extra (entry : Entry) (address : String) (family : Family) :
    (entry.withGateway address family).extra = entry.extra := by
  cases family <;> rfl

theorem withDhcp_extra (entry : Entry) (enabled : Bool) (family : Family) :
    (entry.withDhcp enabled family).extra = entry.extra := by
  cases family <;> rfl

theorem setOneGateway_carries (document : Document) (token : String) :
    document.Carries (document.setOneGateway token).value := by
  unfold setOneGateway
  split
  · exact .refl document
  · exact ⟨rfl, withGateway_extra _ _ _, rfl⟩

theorem setGateway_carries (document : Document) (tokens : List String) :
    document.Carries (document.setGateway tokens).value := by
  induction tokens generalizing document with
  | nil => exact .refl document
  | cons token tokens ih => exact (document.setOneGateway_carries token).trans (ih _)

theorem enableDhcp_extra (entry : Entry) (protocols : List Char) :
    (enableDhcp entry protocols).extra = entry.extra := by
  fun_induction enableDhcp entry protocols with
  | case1 entry => rfl
  | case2 entry rest ih => exact ih.trans (withDhcp_extra entry true .v4)
  | case3 entry rest ih => exact ih.trans (withDhcp_extra entry true .v6)
  | case4 entry _ rest _ _ ih => exact ih

theorem setDhcp_carries (document : Document) (protocols : String) :
    (skeleton document.interface).Carries (document.setDhcp protocols).value :=
  ⟨rfl, enableDhcp_extra _ _, rfl⟩

theorem applyOptions_extra (entry : Entry) (options : List String) :
    (applyOptions entry options).value.extra = entry.extra := by
  induction options generalizing entry with
  | nil => rfl
  | cons option options ih =>
      unfold applyOptions
      split
      · exact (ih _).trans (withDhcp_extra entry true .v4)
      · split
        · exact (ih _).trans (withDhcp_extra entry true .v6)
        · exact ih entry

theorem setIp_carries {document after : Document} {addresses options : List String}
    (ok : (document.setIp addresses options).value = .ok after) :
    (skeleton document.interface).Carries after := by
  unfold setIp at ok
  split at ok
  · cases ok
  · cases ok
    exact ⟨rfl, applyOptions_extra _ _, rfl⟩

theorem setRoute_carries {document after : Document} {token : String} {update : RouteUpdate}
    (ok : document.setRoute token = .ok (update, after)) : document.Carries after := by
  unfold setRoute at ok
  split at ok
  · cases ok
    exact ⟨rfl, rfl, rfl⟩
  · obtain ⟨route, _, added⟩ := map_eq_ok ok
    unfold addRoute at added
    simp only at added
    split at added <;> (cases added; exact ⟨rfl, rfl, rfl⟩)

/-- An edit keeps what the document carries, or starts over from the skeleton. -/
theorem apply_carries {document after : Document} {edit : Edit}
    (ok : (edit.apply document).value = .ok after) :
    document.Carries after ∨ (skeleton document.interface).Carries after := by
  cases edit with
  | setDhcp protocols =>
      cases ok
      exact Or.inr (document.setDhcp_carries protocols)
  | setGateway addresses =>
      cases ok
      exact Or.inl (document.setGateway_carries addresses)
  | setIp addresses options => exact Or.inr (setIp_carries (mapError_eq_ok ok))
  | setRoute token =>
      simp only [Edit.apply] at ok
      split at ok
      · cases ok
      next update edited set =>
        cases ok
        exact Or.inl (setRoute_carries set)

/-! ## Reachable documents -/

/-- Every document that comes about is for its interface and keeps what it carries apart from its
own keys. -/
theorem Reachable.sound {interface : String} {document : Document}
    (reachable : Reachable interface document) :
    document.interface = interface ∧ document.Sound := by
  induction reachable with
  | skeleton => exact ⟨rfl, skeleton_sound interface⟩
  | parsed ok => exact parse_sound ok
  | edited _ ok ih =>
      rcases apply_carries ok with same | fresh
      · exact ⟨same.interface.trans ih.1, ih.2.of_carries same⟩
      · exact ⟨fresh.interface.trans ih.1, (skeleton_sound _).of_carries fresh⟩

end Document

end NetplanEditor
