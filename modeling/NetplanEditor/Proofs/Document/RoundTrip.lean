import NetplanEditor.Proofs.Document.Carried
import NetplanEditor.Proofs.Document.Writable
import NetplanEditor.Proofs.Yaml.ReadsBack

/-!
# A document and its text

Writing a document and reading the text again gives the document back. The text is written from a
value, so this is two facts: the text of the value reads back as the value (`Tree.ReadsBack`, which
is about the data language), and whatever part denotes the value of a document is read as the
document. The second is shown record by record from the route outwards. A field that is left out
when it is written leaves its record at the default when it is read, and what is carried along falls
past all managed keys because of `Document.Sound`.

Not every document has a text: a map whose only key is a map with one entry cannot be written.
Such a key can only stand in what is carried along (`Document.isWritable_toTree`).
-/

namespace NetplanEditor

open Yaml (Fault Node Tree Takes readRecord readOnce require)

/-! ## Fields -/

/-- A field that may be left out sets its part of the record if it is there. -/
theorem takes_optionalField {σ α : Type} (step : σ → String → Node → Except Fault σ) (key : String)
    (write : α → Tree) (field : Option α) (set : Option α → σ)
    (reads : ∀ value, field = some value → ∀ node : Node, node.Denotes (write value) →
      step (set none) key node = .ok (set (some value))) :
    Takes step (set none) (optionalField key write field) (set field) := by
  cases field with
  | none => exact Takes.nil
  | some value => exact Takes.single (reads value rfl)

/-- Fields under keys that are not managed are carried along in their order. -/
theorem takes_fieldsOf {σ : Type} (step : σ → String → Node → Except Fault σ)
    {managed : List String} (fields : Named Tree) (set : List (String × Tree) → σ)
    (carries : ∀ values key node, key ∉ managed →
      step (set values) key node = (carry values key node).map set)
    (free : ∀ field ∈ fields, field.1 ∉ managed) (values : List (String × Tree)) :
    Takes step (set values) (fieldsOf fields) (set (values ++ fields)) := by
  induction fields generalizing values with
  | nil =>
      rw [List.append_nil]
      exact Takes.nil
  | cons field fields ih =>
      rcases field with ⟨key, tree⟩
      rw [List.append_cons]
      refine Takes.cons (fun node means => ?_)
        (ih (fun field member => free field (List.mem_cons_of_mem _ member)) _)
      rw [carries values key node (free _ List.mem_cons_self), carry, means.tree]
      rfl

/-- What can be carried along is carried as it is. -/
theorem carried_of_sound {managed : List String} {fields : Named Tree}
    (sound : Carried managed fields) : carried fields = .ok fields := by
  have distinct : (fields.all fun field => field.2.keysDistinct) = true :=
    List.all_eq_true.mpr fun field member => sound.distinct field member
  exact (if_pos distinct).trans (congrArg Except.ok (Named.foldl_put_of_sorted sound.sorted))

/-! ## Scalars -/

theorem readFlag_of_denotes {node : Node} {value : Bool} (means : node.Denotes (.bool value)) :
    readFlag node = .ok value := by
  simp [readFlag, means.tree, bind, Except.bind, pure, Except.pure]

theorem readMetric_of_denotes {node : Node} {metric : UInt32}
    (means : node.Denotes (.int metric.toNat)) : readMetric node = .ok (some metric) := by
  have fits : metric.toNat < UInt32.size := metric.toNat_lt
  have inRange : (0 : Int) ≤ metric.toNat ∧ (metric.toNat : Int) < UInt32.size := by omega
  simp only [readMetric, means.tree, bind, Except.bind, if_pos inRange]
  simp [pure, Except.pure]

/-! ## Records from the inside out -/

/-- A part that denotes the value of a route is read as the route. -/
theorem Route.ofNode_of_denotes {route : Route} {node : Node} (means : node.Denotes route.toTree) :
    Route.ofNode node = .ok route := by
  obtain ⟨entries, isMap, parts⟩ := means.entries
  have takes : Takes RouteDraft.step {}
      ([(.text "to", .text route.destination), (.text "via", .text route.gateway)] ++
        optionalField "metric" (fun metric => .int metric.toNat) route.metric)
      ⟨some route.destination, some route.gateway, route.metric.map some⟩ := by
    have takesDestination : Takes RouteDraft.step {} [(.text "to", .text route.destination)]
        ⟨some route.destination, none, none⟩ :=
      Takes.single fun node means => by simp [RouteDraft.step, readOnce, means.text, Except.map]
    have takesGateway : Takes RouteDraft.step ⟨some route.destination, none, none⟩
        [(.text "via", .text route.gateway)]
        ⟨some route.destination, some route.gateway, none⟩ :=
      Takes.single fun node means => by simp [RouteDraft.step, readOnce, means.text, Except.map]
    have takesMetric := takes_optionalField RouteDraft.step "metric"
      (fun metric : UInt32 => .int metric.toNat) route.metric
      (fun metric => ⟨some route.destination, some route.gateway, metric.map some⟩)
      (fun metric _ node means => by
        simp [RouteDraft.step, readOnce, means.optional (by simp) (readMetric_of_denotes means),
          Except.map])
    exact (takesDestination.append takesGateway).append takesMetric
  rcases route with ⟨destination, gateway, metric⟩
  cases metric <;>
    simp [Route.ofNode, isMap, takes entries parts, require, bind, Except.bind, pure, Except.pure]

/-- A key of an entry that is not managed is carried along. -/
theorem EntryDraft.step_carries (draft : EntryDraft) (values : List (String × Tree)) (key : String)
    (node : Node) (free : key ∉ Entry.managedKeys) :
    EntryDraft.step { draft with extra := values } key node =
      (carry values key node).map fun extra => { draft with extra } := by
  unfold EntryDraft.step
  split <;> first | rfl | exact (free (by decide)).elim

/-- What is read of the fields of an entry. -/
def Entry.toDraft (entry : Entry) : EntryDraft where
  addresses := if entry.addresses.isEmpty then none else some entry.addresses
  gateway4 := entry.gateway4.map some
  gateway6 := entry.gateway6.map some
  dhcp4 := entry.dhcp4.map some
  dhcp6 := entry.dhcp6.map some
  routes := entry.routes.map some
  extra := entry.extra

/-- A record takes up the fields of an entry as they are written. -/
theorem Entry.takes_fields {entry : Entry} (sound : Carried Entry.managedKeys entry.extra) :
    Takes EntryDraft.step {}
      ((if entry.addresses.isEmpty then []
        else [(.text "addresses", .seq (entry.addresses.map .text))]) ++
      optionalField "gateway4" .text entry.gateway4 ++
      optionalField "gateway6" .text entry.gateway6 ++
      optionalField "dhcp4" .bool entry.dhcp4 ++
      optionalField "dhcp6" .bool entry.dhcp6 ++
      optionalField "routes" (fun routes => .seq (routes.map Route.toTree)) entry.routes ++
      fieldsOf entry.extra) entry.toDraft := by
  let addresses := if entry.addresses.isEmpty then none else some entry.addresses
  have takesAddresses : Takes EntryDraft.step {}
      (if entry.addresses.isEmpty then []
        else [(.text "addresses", .seq (entry.addresses.map .text))]) { addresses } := by
    cases none : entry.addresses.isEmpty with
    | true =>
        simp only [addresses, none, if_true]
        exact Takes.nil
    | false =>
        simp only [addresses, none, Bool.false_eq_true, if_false]
        refine Takes.single fun node means => ?_
        have reads : node.list Node.text = .ok entry.addresses :=
          means.list fun address _ item itemMeans => itemMeans.text
        simp [EntryDraft.step, readOnce, reads, Except.map]
  have takesGateway4 := takes_optionalField EntryDraft.step "gateway4" .text entry.gateway4
    (fun gateway => ({ addresses, gateway4 := gateway.map some } : EntryDraft))
    (fun gateway _ node means => by
      simp [EntryDraft.step, readOnce, means.optional (by simp) means.text, Except.map])
  have takesGateway6 := takes_optionalField EntryDraft.step "gateway6" .text entry.gateway6
    (fun gateway => ({ addresses, gateway4 := entry.gateway4.map some,
                       gateway6 := gateway.map some } : EntryDraft))
    (fun gateway _ node means => by
      simp [EntryDraft.step, readOnce, means.optional (by simp) means.text, Except.map])
  have takesDhcp4 := takes_optionalField EntryDraft.step "dhcp4" .bool entry.dhcp4
    (fun flag => ({ addresses, gateway4 := entry.gateway4.map some,
                    gateway6 := entry.gateway6.map some, dhcp4 := flag.map some } : EntryDraft))
    (fun flag _ node means => by
      simp [EntryDraft.step, readOnce, means.optional (by simp) (readFlag_of_denotes means),
        Except.map])
  have takesDhcp6 := takes_optionalField EntryDraft.step "dhcp6" .bool entry.dhcp6
    (fun flag => ({ addresses, gateway4 := entry.gateway4.map some,
                    gateway6 := entry.gateway6.map some, dhcp4 := entry.dhcp4.map some,
                    dhcp6 := flag.map some } : EntryDraft))
    (fun flag _ node means => by
      simp [EntryDraft.step, readOnce, means.optional (by simp) (readFlag_of_denotes means),
        Except.map])
  have takesRoutes := takes_optionalField EntryDraft.step "routes"
    (fun routes => .seq (routes.map Route.toTree)) entry.routes
    (fun routes => ({ entry.toDraft with routes := routes.map some, extra := [] } : EntryDraft))
    (fun routes _ node means => by
      have reads : node.list Route.ofNode = .ok routes :=
        means.list fun route _ item itemMeans => Route.ofNode_of_denotes itemMeans
      simp [EntryDraft.step, readOnce, means.optional (by simp) reads, Except.map])
  have takesExtra := takes_fieldsOf EntryDraft.step entry.extra
    (fun extra => { entry.toDraft with extra }) (EntryDraft.step_carries _) sound.unmanaged []
  exact ((((((takesAddresses.append takesGateway4).append takesGateway6).append takesDhcp4).append
    takesDhcp6).append takesRoutes).append takesExtra)

/-- A part that denotes the value of an entry is read as the entry. -/
theorem Entry.ofNode_of_denotes {entry : Entry} {node : Node}
    (sound : Carried Entry.managedKeys entry.extra) (means : node.Denotes entry.toTree) :
    Entry.ofNode node = .ok entry := by
  obtain ⟨entries, isMap, parts⟩ := means.entries
  have taken : readRecord EntryDraft.step {} entries = .ok entry.toDraft :=
    Entry.takes_fields sound entries parts
  have extra : carried entry.toDraft.extra = .ok entry.extra := carried_of_sound sound
  have join {α : Type} (field : Option α) : (field.map some).join = field := by
    cases field <;> rfl
  have addresses : entry.toDraft.addresses.getD [] = entry.addresses := by
    cases none : entry.addresses.isEmpty with
    | true => simp [Entry.toDraft, List.isEmpty_iff.mp none]
    | false => simp [Entry.toDraft, none]
  simp only [Entry.ofNode, isMap, taken, extra, addresses, bind, Except.bind, pure, Except.pure]
  simp only [Entry.toDraft, join]

/-- A key of a network that is not managed is carried along. -/
theorem NetworkDraft.step_carries (draft : NetworkDraft) (values : List (String × Tree))
    (key : String) (node : Node) (free : key ∉ Network.managedKeys) :
    NetworkDraft.step { draft with sections := values } key node =
      (carry values key node).map fun sections => { draft with sections } := by
  unfold NetworkDraft.step
  split <;> first | rfl | exact (free (by decide)).elim

namespace Document

/-- What the text of a document says about the network. -/
def network (document : Document) : Network where
  version := schemaVersion
  renderer := document.renderer
  ethernets := [(document.interface, some document.entry)]
  sections := document.sections

/-- A part that denotes the one entry of a document's interface is read as just that. -/
theorem readEthernets_of_denotes {document : Document} {node : Node} (sound : document.Sound)
    (means : node.Denotes (.map [(.text document.interface, document.entry.toTree)])) :
    readEthernets node = .ok [(document.interface, some document.entry)] := by
  obtain ⟨entries, isMap, parts⟩ := means.entries
  have takes : Takes readEthernet [] [(.text document.interface, document.entry.toTree)]
      [(document.interface, some document.entry)] := by
    refine Takes.single fun node means => ?_
    have present : document.entry.toTree ≠ .null := by simp [Entry.toTree]
    rw [readEthernet, means.optional present (Entry.ofNode_of_denotes sound.extra means)]
    rfl
  simp only [readEthernets, isMap, bind, Except.bind]
  exact takes entries parts

/-- A part that denotes what a document says about the network is read as that. -/
theorem ofNode_of_denotes {document : Document} {node : Node} (sound : document.Sound)
    (means : node.Denotes document.networkTree) : Network.ofNode node = .ok document.network := by
  obtain ⟨entries, isMap, parts⟩ := means.entries
  have takesVersion : Takes NetworkDraft.step {}
      [(.text "version", .int schemaVersion.toNat)] { version := some schemaVersion } := by
    refine Takes.single fun node means => ?_
    have reads : node.unsigned32 = .ok schemaVersion :=
      means.unsigned32 (by decide) (by decide)
    simp [NetworkDraft.step, readOnce, reads, Except.map]
  have takesRenderer := takes_optionalField NetworkDraft.step "renderer" .text document.renderer
    (fun renderer =>
      ({ version := some schemaVersion, renderer := renderer.map some } : NetworkDraft))
    (fun renderer _ node means => by
      simp [NetworkDraft.step, readOnce, means.optional (by simp) means.text, Except.map])
  let taken : NetworkDraft :=
    { version := some schemaVersion
      renderer := document.renderer.map some
      ethernets := some [(document.interface, some document.entry)] }
  have takesEthernets : Takes NetworkDraft.step { taken with ethernets := none }
      [(.text "ethernets", .map [(.text document.interface, document.entry.toTree)])] taken := by
    refine Takes.single fun node means => ?_
    simp [NetworkDraft.step, readOnce, readEthernets_of_denotes sound means, Except.map, taken]
  have takesSections := takes_fieldsOf NetworkDraft.step document.sections
    (fun sections => { taken with sections }) (NetworkDraft.step_carries taken)
    sound.sections.unmanaged []
  have record := ((takesVersion.append takesRenderer).append takesEthernets).append takesSections
    entries parts
  have sections : carried document.sections = .ok document.sections :=
    carried_of_sound sound.sections
  simp only [Network.ofNode, isMap, record, bind, Except.bind, pure, Except.pure, taken, require,
    List.nil_append, sections, Option.getD_some, network]
  cases document.renderer <;> rfl

/-- A part that denotes the value of a document is read as what the document says. -/
theorem ofRoot_of_denotes {document : Document} {node : Node} (sound : document.Sound)
    (means : node.Denotes document.toTree) : Network.ofRoot node = .ok document.network := by
  obtain ⟨entries, isMap, parts⟩ := means.entries
  have takes : Takes stepRoot none [(.text "network", document.networkTree)]
      (some document.network) := by
    refine Takes.single fun node means => ?_
    rw [stepRoot, if_pos rfl, readOnce, ofNode_of_denotes sound means]
    rfl
  simp only [Network.ofRoot, isMap, bind, Except.bind, takes entries parts, require]

/-- The network of a document is the document again, without a warning. -/
theorem ofNetwork_network (document : Document) :
    ofNetwork document.interface document.network = pure (.ok document) := by
  simp [ofNetwork, network, Named.names]

/-- A text that means the value of a document is parsed as the document. -/
theorem parse_of_isMeantBy {document : Document} {text : String} (sound : document.Sound)
    (meant : document.toTree.IsMeantBy text) :
    parse document.interface text = pure (.ok document) := by
  obtain ⟨node, source, means⟩ := meant
  have reads : Yaml.readText Network.ofRoot text = .ok document.network :=
    (Yaml.readText_of_ok source).trans (ofRoot_of_denotes sound means)
  rw [parse, reads]
  exact ofNetwork_network document

/-- A document whose text reads back is parsed from its text as it is. -/
theorem parse_render {document : Document} {text : String} (sound : document.Sound)
    (written : document.render = .ok text) (back : document.toTree.ReadsBack) :
    parse document.interface text = pure (.ok document) := by
  unfold render at written
  split at written
  next rendered =>
    cases written
    exact parse_of_isMeantBy sound (back text rendered)
  · cases written

/-- A document that comes about has a text exactly if everything it carries along can be written.
The text is parsed as the document itself without a warning, and so is written again the same. -/
theorem Reachable.roundTrip {interface : String} {document : Document}
    (reachable : Reachable interface document) (back : document.toTree.ReadsBack) :
    ((∃ text, document.render = .ok text) ↔
      AllWritable document.entry.extra ∧ AllWritable document.sections) ∧
    ∀ text, document.render = .ok text →
      parse interface text = pure (.ok document) ∧
      ∀ again, (parse interface text).value = .ok again → again.render = .ok text := by
  obtain ⟨rfl, sound⟩ := reachable.sound
  refine ⟨document.render_isOk, fun text written => ?_⟩
  have parsed := parse_render sound written back
  refine ⟨parsed, fun again reads => ?_⟩
  rw [parsed] at reads
  cases reads
  exact written

/-- A document comes about if a text means its value and it keeps what it carries apart. -/
theorem Sound.reachable {document : Document} {text : String} (sound : document.Sound)
    (meant : document.toTree.IsMeantBy text) : Reachable document.interface document :=
  .parsed (congrArg Logged.value (parse_of_isMeantBy sound meant))

/-- A document with a flag, an empty list of routes and values carried along on both levels. -/
theorem roundTrip_carrying :
    ∃ document : Document, Reachable "eth0" document ∧ document.toTree.ReadsBack ∧
      document.entry.routes = some [] ∧ document.entry.extra.names = ["optional"] ∧
      ∃ text, document.render = .ok text ∧ parse "eth0" text = pure (.ok document) := by
  let document : Document :=
    { interface := "eth0"
      entry := { dhcp4 := some true, routes := some [], extra := [("optional", .bool true)] }
      sections := [("wifis", .map [(.text "wlan0", .null)])] }
  have sound : document.Sound :=
    ⟨⟨List.pairwise_singleton _ _, by decide, by decide⟩,
      ⟨List.pairwise_singleton _ _, by decide, by decide⟩⟩
  have back : document.toTree.ReadsBack := .of_check (by decide +kernel)
  obtain ⟨text, written⟩ := document.render_isOk.mpr ⟨by decide, by decide⟩
  have reachable : Reachable "eth0" document :=
    .parsed (congrArg Logged.value (parse_render sound written back))
  exact ⟨document, reachable, back, rfl, rfl, text, written,
    ((reachable.roundTrip back).2 text written).1⟩

/-- Not every document that comes about has a text: one can carry a map along whose only key is a
map with one entry. -/
theorem roundTrip_not_always_written :
    ¬ ∀ interface document, Reachable interface document → ∃ text, document.render = .ok text := by
  intro always
  let document : Document :=
    { interface := "eth0"
      entry := { extra := [("x", .map [(.map [(.text "a", .text "b")], .text "c")])] } }
  have sound : document.Sound :=
    ⟨⟨List.pairwise_singleton _ _, by decide, by decide⟩, Carried.nil _⟩
  have meant : document.toTree.IsMeantBy
      "network:\n  version: 2\n  ethernets:\n    eth0:\n      x: \x7b\x7ba: b\x7d: c\x7d\n" :=
    .of_check (by decide +kernel)
  obtain ⟨writable, _⟩ := document.render_isOk.mp (always _ _ (sound.reachable meant))
  have notWritable :
      (Yaml.Tree.map [(.map [(.text "a", .text "b")], .text "c")]).isWritable = false := rfl
  exact absurd (writable _ List.mem_cons_self) (by simp [notWritable])

end Document

end NetplanEditor
