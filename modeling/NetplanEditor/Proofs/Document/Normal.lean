import NetplanEditor.Proofs.Document.Carried
import NetplanEditor.Proofs.Document.Writable
import NetplanEditor.Proofs.Yaml.Fields
import NetplanEditor.Proofs.Yaml.ReadsBack

/-!
# What is written for a text that was read

A text says the same thing in many ways: flags as words, numbers in quotes, nulls and empty lists for
what is not there. Reading it and writing it again brings all of this to one form and keeps the rest
(`Normal`). Every reader takes up what its part means, record by record from the route outwards, and
the value of a document puts what was taken up under its names again (`parse_normal`).

The parts are those of a text without tags. Keys count by their texts, so that a key which is an
integer and one which is the same digits in quotes are one key, and the last of them counts.
-/

namespace NetplanEditor

open Yaml (Fault Node Tree Reads readRecord_run readOnce_eq_ok require_eq_ok)

/-! ## The normal form -/

/-- A setting is written exactly if it is given and not null, and then as what it means. -/
inductive Setting (Means : Node → Tree → Prop) : Option Node → Option Tree → Prop
  | missing : Setting Means none none
  | null {node : Node} (isNull : node.tree = .ok .null) : Setting Means (some node) none
  | given {node : Node} {tree : Tree} (notNull : node.tree ≠ .ok .null) (means : Means node tree) :
    Setting Means (some node) (some tree)

/-- The text that the part is written with. -/
def MeansText (node : Node) (tree : Tree) : Prop := ∃ text, node.text = .ok text ∧ tree = .text text

/-- A boolean, or one of its spellings in any case and with blanks around it. -/
inductive MeansFlag (node : Node) : Tree → Prop
  | bool {value : Bool} (means : node.tree = .ok (.bool value)) : MeansFlag node (.bool value)
  | on {text : String} (means : node.tree = .ok (.text text))
    (spelled : Text.lower (Text.trim text) ∈ ["true", "yes", "y", "on"]) :
    MeansFlag node (.bool true)
  | off {text : String} (means : node.tree = .ok (.text text))
    (spelled : Text.lower (Text.trim text) ∈ ["false", "no", "n", "off"]) :
    MeansFlag node (.bool false)

/-- A list that is the same item by item. -/
def MeansList (Means : Node → Tree → Prop) (node : Node) (tree : Tree) : Prop :=
  ∃ items trees, node.items = .ok items ∧ tree = .seq trees ∧ List.Forall₂ Means items trees

/-- Addresses are written exactly if there are any. -/
inductive Addresses : Option Node → Option Tree → Prop
  | missing : Addresses none none
  | empty {node : Node} (noItems : node.items = .ok []) : Addresses (some node) none
  | given {node : Node} {tree : Tree} (any : node.items ≠ .ok [])
    (means : MeansList MeansText node tree) : Addresses (some node) (some tree)

/-- A metric is written exactly if it is given, is not null and is no blank text, and then as a
number. -/
inductive Metric : Option Node → Option Tree → Prop
  | missing : Metric none none
  | null {node : Node} (isNull : node.tree = .ok .null) : Metric (some node) none
  | blank {node : Node} {text : String} (means : node.tree = .ok (.text text))
    (blank : Text.isBlankText text = true) : Metric (some node) none
  | number {node : Node} {value : UInt32} (means : node.tree = .ok (.int value.toNat)) :
    Metric (some node) (some (.int value.toNat))
  | numeral {node : Node} {text : String} {value : UInt32} (means : node.tree = .ok (.text text))
    (filled : Text.isBlankText text = false)
    (reads : Text.readUnsigned32 (Text.trim text) = some value) :
    Metric (some node) (some (.int value.toNat))

/-- A route has its destination, its gateway, and its metric if there is one, and nothing else. -/
inductive MeansRoute (node : Node) : Tree → Prop
  | mk {target hop : Node} {destination gateway : String} {metric : Option Tree}
    (hasTarget : node.field? "to" = some target) (readsTarget : target.text = .ok destination)
    (hasHop : node.field? "via" = some hop) (readsHop : hop.text = .ok gateway)
    (hasMetric : Metric (node.field? "metric") metric) :
    MeansRoute node (.map ([(.text "to", .text destination), (.text "via", .text gateway)] ++
      optionalField "metric" id metric))

/-- Under every name that is not managed stands the value of the part that is given there. -/
def CarriesOver (managed : List String) (given : String → Option Node)
    (written : String → Option Tree) : Prop :=
  ∀ name, name ∉ managed → Reads Node.tree (given name) (written name)

/-- The settings of an interface as they are written for those under the given names. -/
structure NormalEntry (given : String → Option Node) (written : Named Tree) : Prop where
  distinct : written.names.Nodup
  addresses : Addresses (given "addresses") (written.lookup "addresses")
  gateways : ∀ family : Family,
    Setting MeansText (given family.gatewayKey) (written.lookup family.gatewayKey)
  flags : ∀ family : Family,
    Setting MeansFlag (given family.dhcpKey) (written.lookup family.dhcpKey)
  routes : Setting (MeansList MeansRoute) (given "routes") (written.lookup "routes")
  extra : CarriesOver Entry.managedKeys given (List.lookup · written)

/-- What is written about the network for what is under the given names, with one entry for the
interface. -/
structure NormalNetwork (interface : String) (given : String → Option Node)
    (written : Named Tree) : Prop where
  distinct : written.names.Nodup
  version : written.lookup "version" = some (.int 2)
  renderer : Setting MeansText (given "renderer") (written.lookup "renderer")
  ethernets : ∃ settings,
    written.lookup "ethernets" = some (.map [(.text interface, .map (fieldsOf settings))]) ∧
    NormalEntry (fun name => ((given "ethernets").bind (·.field? interface)).bind (·.field? name))
      settings
  sections : CarriesOver Network.managedKeys given (List.lookup · written)

/-- What is written for a whole text: the network and nothing else. -/
def Normal (interface : String) (given : Node) (written : Tree) : Prop :=
  ∃ network settings, given.field? "network" = some network ∧
    written = .map [(.text "network", .map (fieldsOf settings))] ∧
    NormalNetwork interface network.field? settings

/-! ## Settings that were read -/

variable {node : Node}

/-- An optional setting that was read is written as what it means. -/
theorem Setting.of_reads {α : Type} {read : Node → Except Fault α} {write : α → Tree}
    {Means : Node → Tree → Prop} {given : Option Node} {taken : Option (Option α)}
    (reads : Reads (·.optional read) given taken)
    (untagged : ∀ node, given = some node → node.untagged = true)
    (means : ∀ node value, node.untagged = true → read node = .ok value → Means node (write value)) :
    Setting Means given (taken.join.map write) := by
  rcases reads.cases with ⟨rfl, rfl⟩ | ⟨node, result, rfl, readsPart, rfl⟩
  · exact .missing
  · have free := untagged node rfl
    rcases Node.optional_eq_ok readsPart with ⟨absent, rfl⟩ | ⟨value, there, readsValue, rfl⟩
    · exact .null ((Node.tree_eq_null free absent).mpr rfl)
    · exact .given (fun null => nomatch (Node.tree_eq_null free there).mp null)
        (means node value free readsValue)

/-- A list that was read is written as what its items mean. -/
theorem MeansList.of_list {α : Type} {read : Node → Except Fault α} {write : α → Tree}
    {Means : Node → Tree → Prop} {values : List α} (untagged : node.untagged = true)
    (means : ∀ item value, item.untagged = true → read item = .ok value → Means item (write value))
    (reads : node.list read = .ok values) : MeansList Means node (.seq (values.map write)) := by
  obtain ⟨items, isList, readsItems⟩ := Node.list_eq_ok reads
  refine ⟨items, _, isList, rfl, ?_⟩
  have free := Node.untagged_items untagged isList
  clear isList reads
  induction readsItems with
  | nil => exact .nil
  | cons readsItem _ ih =>
      simp only [Node.untaggedItems, Bool.and_eq_true] at free
      exact .cons (means _ _ free.1 readsItem) (ih free.2)

theorem meansText_of_text {text : String} (reads : node.text = .ok text) :
    MeansText node (.text text) :=
  ⟨text, reads, rfl⟩

theorem flagOfText?_eq_some {text : String} {value : Bool} (spells : flagOfText? text = some value) :
    Text.lower (Text.trim text) ∈
      if value then ["true", "yes", "y", "on"] else ["false", "no", "n", "off"] := by
  unfold flagOfText? at spells
  split at spells <;> cases spells <;> simp [*]

theorem meansFlag_of_readFlag {value : Bool} (reads : readFlag node = .ok value) :
    MeansFlag node (.bool value) := by
  obtain ⟨tree, means, reads⟩ := bind_eq_ok reads
  split at reads
  next flag =>
    cases reads
    exact .bool means
  next text =>
    split at reads
    next flag spells =>
      cases reads
      have spelled := flagOfText?_eq_some spells
      cases value with
      | true => exact .on means spelled
      | false => exact .off means spelled
    next => cases reads
  next => cases reads

theorem metric_of_readMetric {metric : Option UInt32} (reads : readMetric node = .ok metric) :
    Metric (some node) (metric.map fun value => .int value.toNat) := by
  obtain ⟨tree, means, reads⟩ := bind_eq_ok reads
  split at reads
  next value =>
    split at reads
    next fits =>
      cases reads
      have exact : ((UInt32.ofNat value.toNat).toNat : Int) = value := by
        rw [UInt32.toNat_ofNat_of_lt' (by omega)]
        omega
      rw [← exact] at means
      exact .number means
    next => cases reads
  next text =>
    split at reads
    next blank =>
      cases reads
      exact .blank means blank
    next filled =>
      split at reads
      next value numeral =>
        cases reads
        exact .numeral means (Bool.eq_false_iff.mpr filled) numeral
      next => cases reads
  next => cases reads

/-! ## Routes -/

/-- What has been taken up of the fields of a route. -/
structure RouteDraft.Taken (draft : RouteDraft) (fields : List (String × Node)) : Prop where
  destination : Reads Node.text (Named.last? fields "to") draft.destination
  gateway : Reads Node.text (Named.last? fields "via") draft.gateway
  metric : Reads (fun node => (node.optional readMetric).map Option.join)
    (Named.last? fields "metric") draft.metric

theorem RouteDraft.Taken.step {draft after : RouteDraft} {fields : List (String × Node)}
    {key : String} {value : Node} (taken : draft.Taken fields)
    (step : draft.step key value = .ok after) : after.Taken (fields ++ [(key, value)]) := by
  unfold RouteDraft.step at step
  split at step
  · obtain ⟨seen, once, rfl⟩ := map_eq_ok step
    obtain ⟨result, reads, rfl⟩ := readOnce_eq_ok once
    exact ⟨.own reads, taken.gateway.other (by decide), taken.metric.other (by decide)⟩
  · obtain ⟨seen, once, rfl⟩ := map_eq_ok step
    obtain ⟨result, reads, rfl⟩ := readOnce_eq_ok once
    exact ⟨taken.destination.other (by decide), .own reads, taken.metric.other (by decide)⟩
  · obtain ⟨seen, once, rfl⟩ := map_eq_ok step
    obtain ⟨result, reads, rfl⟩ := readOnce_eq_ok once
    exact ⟨taken.destination.other (by decide), taken.gateway.other (by decide), .own reads⟩
  next noTo noVia noMetric =>
    obtain ⟨_, _, rfl⟩ := map_eq_ok step
    exact ⟨taken.destination.other (Ne.symm noTo), taken.gateway.other (Ne.symm noVia),
      taken.metric.other (Ne.symm noMetric)⟩

/-- A value that is written in some way is written as what it comes to. -/
theorem optionalField_map {α : Type} (key : String) (write : α → Tree) (field : Option α) :
    optionalField key id (field.map write) = optionalField key write field := by
  cases field <;> rfl

/-- An optional metric that was read is written as what it means. -/
theorem metric_of_optional {metric : Option UInt32} (untagged : node.untagged = true)
    (reads : (node.optional readMetric).map Option.join = .ok metric) :
    Metric (some node) (metric.map fun value => .int value.toNat) := by
  obtain ⟨result, readsPart, rfl⟩ := map_eq_ok reads
  rcases Node.optional_eq_ok readsPart with ⟨absent, rfl⟩ | ⟨value, _, readsValue, rfl⟩
  · exact .null ((Node.tree_eq_null untagged absent).mpr rfl)
  · exact metric_of_readMetric readsValue

theorem meansRoute_of_ofNode (node : Node) (route : Route) (untagged : node.untagged = true)
    (reads : Route.ofNode node = .ok route) : MeansRoute node route.toTree := by
  obtain ⟨entries, isMap, reads⟩ := bind_eq_ok reads
  obtain ⟨draft, record, reads⟩ := bind_eq_ok reads
  obtain ⟨destination, hasDestination, reads⟩ := bind_eq_ok reads
  obtain ⟨gateway, hasGateway, same⟩ := bind_eq_ok reads
  cases same
  have start : RouteDraft.Taken {} [] := ⟨rfl, rfl, rfl⟩
  obtain ⟨takesTo, takesVia, takesMetric⟩ := readRecord_run RouteDraft.Taken.step start record
  rw [← Node.field?_of_entries isMap] at takesTo takesVia takesMetric
  rw [require_eq_ok hasDestination] at takesTo
  rw [require_eq_ok hasGateway] at takesVia
  rcases takesTo.cases with ⟨_, none⟩ | ⟨target, _, hasTarget, readsTarget, same⟩
  · cases none
  cases same
  rcases takesVia.cases with ⟨_, none⟩ | ⟨hop, _, hasHop, readsHop, same⟩
  · cases none
  cases same
  rw [Route.toTree, ← optionalField_map]
  refine .mk hasTarget readsTarget hasHop readsHop ?_
  rcases takesMetric.cases with ⟨missing, noMetric⟩ | ⟨metric, value, hasMetric, readsMetric, same⟩
  · rw [missing, noMetric]
    exact .missing
  · rw [hasMetric, same]
    exact metric_of_optional (Node.untagged_of_field? untagged hasMetric) readsMetric

/-! ## Values that are carried along -/

/-- A value that is carried stands under its key, and the others under theirs. -/
theorem CarriesOver.carry {managed : List String} {fields : List (String × Node)}
    {values after : List (String × Tree)} {key : String} {value : Node}
    (before : CarriesOver managed (Named.last? fields) (Named.last? values))
    (carries : carry values key value = .ok after) :
    CarriesOver managed (Named.last? (fields ++ [(key, value)])) (Named.last? after) := by
  intro name free
  obtain ⟨tree, reads, rfl⟩ := map_eq_ok carries
  by_cases own : name = key
  · subst own
    rw [Named.last?_concat values, if_pos rfl]
    exact .own reads
  · rw [Named.last?_concat values, if_neg own]
    exact (before name free).other own

/-- A managed key leaves what is carried. -/
theorem CarriesOver.managed {managed : List String} {fields : List (String × Node)}
    {values : List (String × Tree)} {key : String} {value : Node}
    (before : CarriesOver managed (Named.last? fields) (Named.last? values))
    (own : key ∈ managed) :
    CarriesOver managed (Named.last? (fields ++ [(key, value)])) (Named.last? values) :=
  fun name free => (before name free).other fun same => free (same ▸ own)

/-- What is carried in the end is the last value of each key. -/
theorem lookup_carried {values : List (String × Tree)} {fields : Named Tree}
    (ok : carried values = .ok fields) (name : String) :
    fields.lookup name = Named.last? values name := by
  unfold carried at ok
  split at ok
  · cases ok
    exact (Named.lookup_foldl_put values [] name).trans (Option.or_none)
  · cases ok

/-- What is carried over is written beside what a document has of its own. -/
theorem CarriesOver.written {managed : List String} {given : String → Option Node}
    {own : Named (Option Tree)} {values : List (String × Tree)} {extra : Named Tree}
    (taken : CarriesOver managed given (Named.last? values)) (names : own.names = managed)
    (carries : carried values = .ok extra) :
    CarriesOver managed given (List.lookup · (own.present ++ extra)) := by
  subst names
  intro name free
  dsimp only
  rw [Named.lookup_beside free, lookup_carried carries]
  exact taken name free

/-! ## The entry of an interface -/

/-- What has been taken up of the fields of an entry. -/
structure EntryDraft.Taken (draft : EntryDraft) (fields : List (String × Node)) : Prop where
  addresses : Reads (·.list Node.text) (Named.last? fields "addresses") draft.addresses
  gateway4 : Reads (·.optional Node.text) (Named.last? fields "gateway4") draft.gateway4
  gateway6 : Reads (·.optional Node.text) (Named.last? fields "gateway6") draft.gateway6
  dhcp4 : Reads (·.optional readFlag) (Named.last? fields "dhcp4") draft.dhcp4
  dhcp6 : Reads (·.optional readFlag) (Named.last? fields "dhcp6") draft.dhcp6
  routes : Reads (·.optional (·.list Route.ofNode)) (Named.last? fields "routes") draft.routes
  extra : CarriesOver Entry.managedKeys (Named.last? fields) (Named.last? draft.extra)

theorem EntryDraft.Taken.step {draft after : EntryDraft} {fields : List (String × Node)}
    {key : String} {value : Node} (taken : draft.Taken fields)
    (step : draft.step key value = .ok after) : after.Taken (fields ++ [(key, value)]) := by
  obtain ⟨addresses, gateway4, gateway6, dhcp4, dhcp6, routes, extra⟩ := taken
  unfold EntryDraft.step at step
  split at step
  case h_7 noAddresses noGateway4 noGateway6 noDhcp4 noDhcp6 noRoutes =>
    obtain ⟨values, carries, rfl⟩ := map_eq_ok step
    exact ⟨addresses.other (Ne.symm noAddresses), gateway4.other (Ne.symm noGateway4),
      gateway6.other (Ne.symm noGateway6), dhcp4.other (Ne.symm noDhcp4),
      dhcp6.other (Ne.symm noDhcp6), routes.other (Ne.symm noRoutes), extra.carry carries⟩
  -- A managed key: its own field is what was read under it, and the others stay what they were.
  all_goals
    obtain ⟨seen, once, rfl⟩ := map_eq_ok step
    obtain ⟨result, reads, rfl⟩ := readOnce_eq_ok once
    constructor
    all_goals first
      | exact .own reads
      | exact extra.managed (by decide)
      | exact Reads.other (by assumption) (by decide)

/-- The settings that an entry has of its own. -/
def Entry.own (entry : Entry) : Named (Option Tree) :=
  [("addresses", if entry.addresses.isEmpty then none else some (.seq (entry.addresses.map .text))),
    ("gateway4", entry.gateway4.map .text), ("gateway6", entry.gateway6.map .text),
    ("dhcp4", entry.dhcp4.map .bool), ("dhcp6", entry.dhcp6.map .bool),
    ("routes", entry.routes.map fun routes => .seq (routes.map Route.toTree))]

/-- All settings of an entry by their names. -/
def Entry.settings (entry : Entry) : Named Tree := entry.own.present ++ entry.extra

theorem fieldsOf_append (left right : Named Tree) :
    fieldsOf (left ++ right) = fieldsOf left ++ fieldsOf right :=
  List.map_append

theorem fieldsOf_present (key : String) (value : Option Tree) (rest : Named (Option Tree)) :
    fieldsOf (Named.present ((key, value) :: rest)) =
      optionalField key id value ++ fieldsOf rest.present := by
  cases value <;> rfl

theorem Entry.toTree_eq (entry : Entry) : entry.toTree = .map (fieldsOf entry.settings) := by
  have addresses : optionalField "addresses" id
      (if entry.addresses.isEmpty then none else some (.seq (entry.addresses.map .text))) =
      if entry.addresses.isEmpty then []
      else [(.text "addresses", .seq (entry.addresses.map .text))] := by
    split <;> rfl
  simp only [Entry.toTree, Entry.settings, Entry.own, fieldsOf_append, fieldsOf_present,
    optionalField_map, addresses, List.append_assoc]
  rfl

theorem Entry.nodup_own (entry : Entry) : entry.own.names.Nodup :=
  (by decide : Entry.managedKeys.Nodup)

theorem Entry.lookup_managed {entry : Entry} (sound : Carried Entry.managedKeys entry.extra)
    {key : String} (own : key ∈ Entry.managedKeys) :
    entry.settings.lookup key = (entry.own.lookup key).join :=
  Named.lookup_beside_own entry.nodup_own sound.unmanaged own

/-- The addresses that were read are written if there are any. -/
theorem addresses_of_reads {given : Option Node} {taken : Option (List String)}
    (reads : Reads (·.list Node.text) given taken)
    (untagged : ∀ node, given = some node → node.untagged = true) :
    Addresses given (if (taken.getD []).isEmpty then none
      else some (.seq ((taken.getD []).map .text))) := by
  rcases reads.cases with ⟨rfl, rfl⟩ | ⟨node, addresses, rfl, readsList, rfl⟩
  · exact .missing
  · have means : MeansList MeansText node (.seq (addresses.map .text)) :=
      MeansList.of_list (untagged node rfl) (fun _ _ _ => meansText_of_text) readsList
    obtain ⟨items, isList, readsItems⟩ := Node.list_eq_ok readsList
    cases readsItems with
    | nil => exact .empty isList
    | cons _ _ => exact .given (by simp [isList]) means

/-- An entry that was read is written in normal form. -/
theorem Entry.normal_of_ofNode {entry : Entry} (untagged : node.untagged = true)
    (reads : Entry.ofNode node = .ok entry) : NormalEntry node.field? entry.settings := by
  have sound := Entry.ofNode_carried reads
  obtain ⟨entries, isMap, reads⟩ := bind_eq_ok reads
  obtain ⟨draft, record, reads⟩ := bind_eq_ok reads
  obtain ⟨extra, carries, same⟩ := bind_eq_ok reads
  cases same
  have start : EntryDraft.Taken {} [] := ⟨rfl, rfl, rfl, rfl, rfl, rfl, fun _ _ => rfl⟩
  obtain ⟨addresses, gateway4, gateway6, dhcp4, dhcp6, routes, others⟩ :=
    readRecord_run EntryDraft.Taken.step start record
  rw [← Node.field?_of_entries isMap] at addresses gateway4 gateway6 dhcp4 dhcp6 routes others
  have free (name : String) (part : Node) : node.field? name = some part → part.untagged = true :=
    Node.untagged_of_field? untagged
  constructor
  case distinct => exact Named.nodup_beside (Entry.nodup_own _) sound.unmanaged sound.sorted
  case addresses =>
    rw [Entry.lookup_managed sound (by decide)]
    exact addresses_of_reads addresses (free _)
  case gateways =>
    intro family
    cases family with
    | v4 =>
        rw [Entry.lookup_managed sound (by decide)]
        exact Setting.of_reads gateway4 (free _) fun _ _ _ => meansText_of_text
    | v6 =>
        rw [Entry.lookup_managed sound (by decide)]
        exact Setting.of_reads gateway6 (free _) fun _ _ _ => meansText_of_text
  case flags =>
    intro family
    cases family with
    | v4 =>
        rw [Entry.lookup_managed sound (by decide)]
        exact Setting.of_reads dhcp4 (free _) fun _ _ _ => meansFlag_of_readFlag
    | v6 =>
        rw [Entry.lookup_managed sound (by decide)]
        exact Setting.of_reads dhcp6 (free _) fun _ _ _ => meansFlag_of_readFlag
  case routes =>
    rw [Entry.lookup_managed sound (by decide)]
    exact Setting.of_reads routes (free _) fun _ _ untagged =>
      MeansList.of_list untagged meansRoute_of_ofNode
  case extra => exact others.written rfl carries

/-- An entry of which nothing is given is written without settings. -/
theorem Entry.normal_empty : NormalEntry (fun _ => none) Entry.empty.settings where
  distinct := List.nodup_nil
  addresses := .missing
  gateways _ := .missing
  flags _ := .missing
  routes := .missing
  extra _ _ := rfl

/-! ## The network -/

/-- What has been taken up of the fields of a network. -/
structure NetworkDraft.Taken (draft : NetworkDraft) (fields : List (String × Node)) : Prop where
  renderer : Reads (·.optional Node.text) (Named.last? fields "renderer") draft.renderer
  ethernets : Reads readEthernets (Named.last? fields "ethernets") draft.ethernets
  sections : CarriesOver Network.managedKeys (Named.last? fields) (Named.last? draft.sections)

theorem NetworkDraft.Taken.step {draft after : NetworkDraft} {fields : List (String × Node)}
    {key : String} {value : Node} (taken : draft.Taken fields)
    (step : draft.step key value = .ok after) : after.Taken (fields ++ [(key, value)]) := by
  obtain ⟨renderer, ethernets, sections⟩ := taken
  unfold NetworkDraft.step at step
  split at step
  case h_4 noVersion noRenderer noEthernets =>
    obtain ⟨values, carries, rfl⟩ := map_eq_ok step
    exact ⟨renderer.other (Ne.symm noRenderer), ethernets.other (Ne.symm noEthernets),
      sections.carry carries⟩
  all_goals
    obtain ⟨seen, once, rfl⟩ := map_eq_ok step
    obtain ⟨result, reads, rfl⟩ := readOnce_eq_ok once
    constructor
    all_goals first
      | exact .own reads
      | exact sections.managed (by decide)
      | exact Reads.other (by assumption) (by decide)

/-- The entries that have been taken up are those of the interfaces so far. -/
theorem readEthernet_reads {ethernets after : Named (Option Entry)} {fields : List (String × Node)}
    {key : String} {value : Node}
    (before : ∀ name, Reads (·.optional Entry.ofNode) (Named.last? fields name)
      (ethernets.lookup name))
    (step : readEthernet ethernets key value = .ok after) (name : String) :
    Reads (·.optional Entry.ofNode) (Named.last? (fields ++ [(key, value)]) name)
      (after.lookup name) := by
  obtain ⟨entry, reads, rfl⟩ := map_eq_ok step
  rw [Named.lookup_put]
  split
  next own =>
    subst own
    exact .own reads
  next other => exact (before name).other other

theorem reads_of_readEthernets {ethernets : Named (Option Entry)}
    (reads : readEthernets node = .ok ethernets) (name : String) :
    Reads (·.optional Entry.ofNode) (node.field? name) (ethernets.lookup name) := by
  obtain ⟨entries, isMap, record⟩ := bind_eq_ok reads
  rw [Node.field?_of_entries isMap]
  have start (name : String) : Reads (·.optional Entry.ofNode) (Named.last? [] name)
      (List.lookup name ([] : Named (Option Entry))) := rfl
  exact readRecord_run (P := fun ethernets fields => ∀ name,
    Reads (·.optional Entry.ofNode) (Named.last? fields name) (List.lookup name ethernets))
    readEthernet_reads start record name

/-- The entry of an interface is written in normal form, be it missing, null or there. -/
theorem Entry.normal_of_reads {given : Option Node} {taken : Option (Option Entry)}
    (reads : Reads (·.optional Entry.ofNode) given taken)
    (untagged : ∀ node, given = some node → node.untagged = true) :
    NormalEntry (fun name => given.bind (·.field? name)) (taken.join.getD .empty).settings := by
  rcases reads.cases with ⟨rfl, rfl⟩ | ⟨node, result, rfl, readsPart, rfl⟩
  · exact Entry.normal_empty
  · rcases Node.optional_eq_ok readsPart with ⟨absent, rfl⟩ | ⟨entry, _, readsEntry, rfl⟩
    · have nothing : (fun name => (some node).bind (·.field? name)) = fun _ => none :=
        funext fun _ => Node.field?_of_isAbsent absent
      rw [nothing]
      exact Entry.normal_empty
    · exact Entry.normal_of_ofNode (untagged node rfl) readsEntry

/-- The entry of an interface in a network is that under its name. -/
theorem Entry.normal_of_readEthernets {given : Option Node}
    {taken : Option (Named (Option Entry))} (interface : String)
    (reads : Reads readEthernets given taken)
    (untagged : ∀ node, given = some node → node.untagged = true) :
    NormalEntry (fun name => (given.bind (·.field? interface)).bind (·.field? name))
      ((((taken.getD []).lookup interface).join).getD .empty).settings := by
  rcases reads.cases with ⟨rfl, rfl⟩ | ⟨node, ethernets, rfl, readsPart, rfl⟩
  · exact Entry.normal_empty
  · exact Entry.normal_of_reads (reads_of_readEthernets readsPart interface)
      fun part found => Node.untagged_of_field? (untagged node rfl) found

namespace Document

/-- What a document has of its own to write about the network. -/
def own (document : Document) : Named (Option Tree) :=
  [("version", some (.int schemaVersion.toNat)), ("renderer", document.renderer.map .text),
    ("ethernets", some (.map [(.text document.interface, document.entry.toTree)]))]

/-- All that a document writes about the network, by names. -/
def settings (document : Document) : Named Tree := document.own.present ++ document.sections

theorem toTree_eq (document : Document) :
    document.toTree = .map [(.text "network", .map (fieldsOf document.settings))] := by
  simp only [toTree, networkTree, settings, own, fieldsOf_append, fieldsOf_present,
    optionalField_map, List.append_assoc]
  rfl

theorem nodup_own (document : Document) : document.own.names.Nodup :=
  (by decide : Network.managedKeys.Nodup)

theorem lookup_managed {document : Document} (sound : document.Sound) {key : String}
    (isOwn : key ∈ Network.managedKeys) :
    document.settings.lookup key = (document.own.lookup key).join :=
  Named.lookup_beside_own document.nodup_own sound.sections.unmanaged isOwn

/-- The document that a network describes has what the network says, and the entry of its
interface. -/
theorem ofNetwork_eq_ok {interface : String} {network : Network} {document : Document}
    (ok : (ofNetwork interface network).value = .ok document) :
    document = { interface, renderer := network.renderer, sections := network.sections,
                 entry := (network.ethernets.lookup interface).join.getD .empty } := by
  unfold ofNetwork at ok
  split at ok
  · cases ok
  split at ok
  · cases ok
  split at ok
  next entry found =>
    cases ok
    rw [found]
    rfl
  next missing =>
    cases ok
    rw [missing]
    rfl

/-- What a document says about the network that it was made of is written in normal form. -/
theorem normal_of_ofNode {interface : String} {network : Network} {document : Document}
    (untagged : node.untagged = true) (reads : Network.ofNode node = .ok network)
    (ok : (ofNetwork interface network).value = .ok document) :
    NormalNetwork interface node.field? document.settings := by
  obtain ⟨ethernetsSound, sectionsSound⟩ := Network.ofNode_sound reads
  obtain ⟨_, sound⟩ := ofNetwork_sound ethernetsSound sectionsSound ok
  obtain rfl := ofNetwork_eq_ok ok
  obtain ⟨entries, isMap, reads⟩ := bind_eq_ok reads
  obtain ⟨draft, record, reads⟩ := bind_eq_ok reads
  obtain ⟨version, _, reads⟩ := bind_eq_ok reads
  obtain ⟨sections, carries, same⟩ := bind_eq_ok reads
  cases same
  have start : NetworkDraft.Taken {} [] := ⟨rfl, rfl, fun _ _ => rfl⟩
  obtain ⟨renderer, ethernets, others⟩ := readRecord_run NetworkDraft.Taken.step start record
  rw [← Node.field?_of_entries isMap] at renderer ethernets others
  have free (name : String) (part : Node) : node.field? name = some part → part.untagged = true :=
    Node.untagged_of_field? untagged
  constructor
  case distinct =>
    exact Named.nodup_beside (nodup_own _) sound.sections.unmanaged sound.sections.sorted
  case version => rw [lookup_managed sound (by decide)]; rfl
  case renderer =>
    rw [lookup_managed sound (by decide)]
    exact Setting.of_reads renderer (free _) fun _ _ _ => meansText_of_text
  case ethernets =>
    rw [lookup_managed sound (by decide)]
    refine ⟨_, ?_, Entry.normal_of_readEthernets interface ethernets (free _)⟩
    rw [← Entry.toTree_eq]
    rfl
  case sections => exact others.written rfl carries

/-- The network that has been taken up is that under its name. -/
theorem stepRoot_reads {seen after : Option Network} {fields : List (String × Node)} {key : String}
    {value : Node} (before : Reads Network.ofNode (Named.last? fields "network") seen)
    (step : stepRoot seen key value = .ok after) :
    Reads Network.ofNode (Named.last? (fields ++ [(key, value)]) "network") after := by
  unfold stepRoot at step
  split at step
  next isNetwork =>
    subst isNetwork
    obtain ⟨network, readsPart, rfl⟩ := readOnce_eq_ok step
    exact .own readsPart
  next other =>
    obtain ⟨_, _, rfl⟩ := map_eq_ok step
    exact before.other (Ne.symm other)

/-- The network of a whole text is what stands under its name. -/
theorem field?_of_ofRoot {network : Network} (reads : Network.ofRoot node = .ok network) :
    ∃ part, node.field? "network" = some part ∧ Network.ofNode part = .ok network := by
  obtain ⟨entries, isMap, reads⟩ := bind_eq_ok reads
  obtain ⟨seen, record, found⟩ := bind_eq_ok reads
  rw [Node.field?_of_entries isMap]
  have start : Reads Network.ofNode (Named.last? [] "network") none := rfl
  have taken : Reads Network.ofNode (Named.last? (Node.named entries) "network") seen :=
    readRecord_run (P := fun seen fields => Reads Network.ofNode (Named.last? fields "network") seen)
      stepRoot_reads start record
  rw [require_eq_ok found] at taken
  rcases taken.cases with ⟨_, none⟩ | ⟨part, _, hasNetwork, readsPart, same⟩
  · cases none
  · cases same
    exact ⟨part, hasNetwork, readsPart⟩

/-- A text without tags that holds a document is brought to normal form: the value that the document
is written from says the same, and it has a text exactly if everything that is carried along has
one. -/
theorem parse_normal {interface text : String} {node : Node} {document : Document}
    (source : Yaml.readText Except.ok text = .ok node) (untagged : node.untagged = true)
    (ok : (parse interface text).value = .ok document) :
    Normal interface node document.toTree ∧
      ((∃ written, document.render = .ok written) ↔
        AllWritable document.entry.extra ∧ AllWritable document.sections) ∧
      ∀ written, document.render = .ok written → document.toTree.render? = some written := by
  refine ⟨?_, document.render_isOk, fun written renders => ?_⟩
  · unfold parse at ok
    split at ok
    · cases ok
    next network reads =>
      rw [Yaml.readText_of_ok source] at reads
      obtain ⟨part, hasNetwork, readsPart⟩ := field?_of_ofRoot reads
      exact ⟨part, document.settings, hasNetwork, document.toTree_eq,
        normal_of_ofNode (Node.untagged_of_field? untagged hasNetwork) readsPart ok⟩
  · unfold render at renders
    split at renders
    next text isText =>
      cases renders
      exact isText
    next => cases renders

/-- The text is a part without tags and holds a document with the value. -/
def holds (interface text : String) (tree : Tree) : Bool :=
  match Yaml.readText Except.ok text with
  | .error _ => false
  | .ok node =>
    node.untagged &&
      match Network.ofRoot node with
      | .error _ => false
      | .ok network =>
        match (ofNetwork interface network).value with
        | .error _ => false
        | .ok document => document.toTree.equal tree

theorem of_holds {interface text : String} {tree : Tree}
    (check : holds interface text tree = true) :
    ∃ node document, Yaml.readText Except.ok text = .ok node ∧ node.untagged = true ∧
      (parse interface text).value = .ok document ∧ document.toTree = tree := by
  unfold holds at check
  split at check
  · cases check
  next node source =>
    obtain ⟨untagged, check⟩ := Bool.and_eq_true_iff.mp check
    split at check
    · cases check
    next network reads =>
      split at check
      · cases check
      next document made =>
        have parses : (parse interface text).value = .ok document := by
          rw [parse, Yaml.readText_of_ok source, reads]
          exact made
        exact ⟨node, document, source, untagged, parses, Yaml.Tree.eq_of_equal _ _ check⟩

/-- A text as older tools wrote it, with a flag in quotes, a null, and an empty list. -/
def legacy : String :=
  "network:\n  version: 2\n  renderer: ~\n  ethernets:\n    eth0:\n      addresses: []\n" ++
    "      dhcp4: ' Yes'\n      mtu: 9000\n      routes:\n      - metric: '7'\n        via: fe80::1\n" ++
    "        to: default\n"

/-- What is written for that text. -/
def modern : Tree :=
  .map [(.text "network", .map [(.text "version", .int 2), (.text "ethernets", .map [
    (.text "eth0", .map [(.text "dhcp4", .bool true),
      (.text "routes", .seq [.map [(.text "to", .text "default"), (.text "via", .text "fe80::1"),
        (.text "metric", .int 7)]]),
      (.text "mtu", .int 9000)])])])]

theorem parse_normal_legacy :
    ∃ node document, Yaml.readText Except.ok legacy = .ok node ∧ node.untagged = true ∧
      (parse "eth0" legacy).value = .ok document ∧ Normal "eth0" node modern ∧
      ∃ written, document.render = .ok written ∧ modern.render? = some written := by
  obtain ⟨node, document, source, untagged, parses, value⟩ :=
    of_holds (by decide +kernel : holds "eth0" legacy modern = true)
  obtain ⟨normal, canWrite, isText⟩ := parse_normal source untagged parses
  have writable : document.toTree.isWritable = true := by
    rw [value]
    decide
  obtain ⟨written, renders⟩ := canWrite.mpr (document.isWritable_toTree.mp writable)
  have fromModern := isText written renders
  rw [value] at normal fromModern
  exact ⟨node, document, source, untagged, parses, normal, written, renders, fromModern⟩

/-- A text that carries a map along whose only key is a map with one entry. -/
def nested : String := "network:\n  version: 2\n  x: \x7b\x7ba: b\x7d: c\x7d\n"

/-- A text with a number for a key, the same digits in quotes, and a number for an address. -/
def numbered : String :=
  "network:\n  version: 2\n  ethernets:\n    eth0:\n      addresses: [10]\n  10: a\n  '10': b\n"

/-- What that text means. -/
def numberedTree : Tree :=
  .map [(.text "network", .map [(.text "version", .int 2),
    (.text "ethernets", .map [(.text "eth0", .map [(.text "addresses", .seq [.int 10])])]),
    (.int 10, .text "a"), (.text "10", .text "b")])]

/-- What is written for it. -/
def digitsTree : Tree :=
  .map [(.text "network", .map [(.text "version", .int 2),
    (.text "ethernets", .map [(.text "eth0", .map [(.text "addresses", .seq [.text "10"])])]),
    (.text "10", .text "b")])]

/-- Not every text without tags and repeated keys that holds a document is written again. Nor does
every value beside the managed keys come back under its key, or every address as what it was. -/
theorem parse_not_normal :
    (∃ given document, Tree.IsMeantBy given nested ∧ given.keysDistinct = true ∧
      (parse "eth0" nested).value = .ok document ∧ ∀ written, document.render ≠ .ok written) ∧
    ∃ document, numberedTree.IsMeantBy numbered ∧ numberedTree.keysDistinct = true ∧
      (parse "eth0" numbered).value = .ok document ∧ document.toTree = digitsTree := by
  constructor
  · let carried : Tree := .map [(.map [(.text "a", .text "b")], .text "c")]
    obtain ⟨_, document, _, _, parses, value⟩ :=
      of_holds (by decide +kernel : holds "eth0" nested (.map [(.text "network",
        .map [(.text "version", .int 2), (.text "ethernets", .map [(.text "eth0", .map [])]),
          (.text "x", carried)])]) = true)
    refine ⟨.map [(.text "network", .map [(.text "version", .int 2), (.text "x", carried)])],
      document, .of_check (by decide +kernel), by decide, parses, fun written renders => ?_⟩
    have writable : document.toTree.isWritable = true :=
      document.isWritable_toTree.mpr (document.render_isOk.mp ⟨written, renders⟩)
    rw [value] at writable
    exact absurd writable (by decide)
  · obtain ⟨_, document, _, _, parses, value⟩ :=
      of_holds (by decide +kernel : holds "eth0" numbered digitsTree = true)
    exact ⟨document, .of_check (by decide +kernel), by decide, parses, value⟩

end Document

end NetplanEditor
