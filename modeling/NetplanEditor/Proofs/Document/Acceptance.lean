import NetplanEditor.Proofs.Document.Normal
import NetplanEditor.Proofs.Yaml.Shape

/-!
# Which networks are read

A network of the right shape can still be unreadable, for its version, or for a flag or a metric that
says nothing, in whatever entry it stands. Every reader is told by what it accepts (`accepts_route`,
`accepts_entry`, `accepts_network`), from the route outwards: reading a part gives a normal form, and
so what stands in it fits; and where everything fits, each field goes through behind those before it.

Keys count by their texts as in the normal form, and the version is an integer that is written without
a minus sign: `-0` is zero wherever any value is wanted, and no version.
-/

namespace NetplanEditor

open Yaml (Accepts Fault Node Reads Tree readRecord_field readRecord_goes readRecord_run
  readOnce_eq_ok require_eq_ok)
open Yaml.Node (IsText accepts_list accepts_optional)

/-! ## Shapes -/

/-- A destination and a gateway are texts. -/
def RouteField (key : String) (value : Node) : Prop := key ∈ ["to", "via"] → value.IsText

/-- A route has both of them. -/
structure RouteShape (route : Node) : Prop where
  record : route.IsRecord RouteField
  complete : ∀ key ∈ ["to", "via"], route.field? key ≠ none

/-- Addresses are a list of texts, gateways are texts or null, and so are routes a list or null. -/
structure EntryField (key : String) (value : Node) : Prop where
  addresses : key = "addresses" → value.IsList IsText
  gateways : ∀ family : Family, key = family.gatewayKey → value.IsOptional IsText
  routes : key = "routes" → value.IsOptional (·.IsList RouteShape)

def EntryShape (entry : Node) : Prop := entry.IsRecord EntryField

/-- A renderer is a text or null, and every interface has an entry or null. -/
structure NetworkField (key : String) (value : Node) : Prop where
  renderer : key = "renderer" → value.IsOptional IsText
  ethernets : key = "ethernets" → value.IsRecord fun _ => (·.IsOptional EntryShape)

/-- The whole is a map with the network in it. -/
structure RootShape (root : Node) : Prop where
  record : root.IsRecord fun key value => key = "network" → value.IsRecord NetworkField
  complete : root.field? "network" ≠ none

instance (key : String) : DecidablePred (RouteField key) :=
  fun _ => inferInstanceAs (Decidable (_ → _))

instance : DecidablePred RouteShape := fun route =>
  decidable_of_iff (route.IsRecord RouteField ∧ ∀ key ∈ ["to", "via"], route.field? key ≠ none)
    ⟨fun ⟨record, complete⟩ => ⟨record, complete⟩, fun ⟨record, complete⟩ => ⟨record, complete⟩⟩

instance (key : String) : DecidablePred (EntryField key) := fun value =>
  decidable_of_iff ((key = "addresses" → value.IsList IsText) ∧
      (key = Family.v4.gatewayKey ∨ key = Family.v6.gatewayKey → value.IsOptional IsText) ∧
      (key = "routes" → value.IsOptional (·.IsList RouteShape)))
    ⟨fun ⟨addresses, gateways, routes⟩ =>
        ⟨addresses, fun family same => gateways (by cases family <;> simp [same]), routes⟩,
      fun ⟨addresses, gateways, routes⟩ =>
        ⟨addresses, fun same => same.elim (gateways .v4) (gateways .v6), routes⟩⟩

instance : DecidablePred EntryShape := inferInstanceAs (DecidablePred (Node.IsRecord EntryField))

instance (key : String) : DecidablePred (NetworkField key) := fun value =>
  decidable_of_iff ((key = "renderer" → value.IsOptional IsText) ∧
      (key = "ethernets" → value.IsRecord fun _ => (·.IsOptional EntryShape)))
    ⟨fun ⟨renderer, ethernets⟩ => ⟨renderer, ethernets⟩,
      fun ⟨renderer, ethernets⟩ => ⟨renderer, ethernets⟩⟩

instance : DecidablePred RootShape := fun root =>
  decidable_of_iff ((root.IsRecord fun key value => key = "network" → value.IsRecord NetworkField) ∧
      root.field? "network" ≠ none)
    ⟨fun ⟨record, complete⟩ => ⟨record, complete⟩, fun ⟨record, complete⟩ => ⟨record, complete⟩⟩

/-! ## Values -/

/-- A flag is null, or means on or off. -/
def FlagFits (flag : Node) : Prop := flag.IsOptional fun flag => ∃ value, MeansFlag flag value

/-- A metric is null, blank, or a number of 32 bits. -/
def MetricFits (metric : Node) : Prop := ∃ written, Metric (some metric) written

/-- An unsigned integer of 32 bits that is written without a minus sign. -/
structure MeansVersion (node : Node) (version : UInt32) : Prop where
  value : node.tree = .ok (.int version.toNat)
  unsigned : ∀ text, node.text = .ok text → text.toList.head? ≠ some '-'

def RouteFits (route : Node) : Prop := ∀ metric, route.field? "metric" = some metric → MetricFits metric

/-- The flags of an entry fit, and the metrics of its routes. -/
structure EntryFits (entry : Node) : Prop where
  flags : ∀ (family : Family) flag, entry.field? family.dhcpKey = some flag → FlagFits flag
  routes : ∀ routes route, entry.field? "routes" = some routes → routes.HasItem route →
    RouteFits route

/-- The version under its key is the one given. -/
def HasVersion (network : Node) (version : UInt32) : Prop :=
  ∃ node, network.field? "version" = some node ∧ MeansVersion node version

/-- The network has a version, and all its entries fit. -/
structure NetworkFits (network : Node) : Prop where
  version : ∃ version, HasVersion network version
  entries : ∀ ethernets name entry, network.field? "ethernets" = some ethernets →
    ethernets.HasField name entry → EntryFits entry

/-! ## Scalars -/

variable {node value : Node} {key : String}

theorem flagOfText?_eq {text : String} {flag : Bool}
    (spelled : Text.lower (Text.trim text) ∈
      if flag then ["true", "yes", "y", "on"] else ["false", "no", "n", "off"]) :
    flagOfText? text = some flag := by
  unfold flagOfText?
  cases flag with
  | true =>
      simp only [if_true, List.mem_cons, List.not_mem_nil, or_false] at spelled
      rcases spelled with same | same | same | same <;> simp [same]
  | false =>
      simp only [Bool.false_eq_true, if_false, List.mem_cons, List.not_mem_nil, or_false] at spelled
      rcases spelled with same | same | same | same <;> simp [same]

theorem accepts_flag : Accepts readFlag node ↔ ∃ flag, MeansFlag node flag := by
  constructor
  · rintro ⟨flag, reads⟩
    exact ⟨_, meansFlag_of_readFlag reads⟩
  · rintro ⟨flag, means⟩
    cases means with
    | @bool flag means => exact ⟨flag, by rw [readFlag, means]; rfl⟩
    | on means spelled =>
        have spells : flagOfText? _ = some true := flagOfText?_eq spelled
        exact ⟨true, by simp only [readFlag, means, spells, bind, Except.bind]; rfl⟩
    | off means spelled =>
        have spells : flagOfText? _ = some false := flagOfText?_eq spelled
        exact ⟨false, by simp only [readFlag, means, spells, bind, Except.bind]; rfl⟩

/-- The reader of a metric that may be missing. -/
theorem accepts_metric (clean : node.Clean) :
    Accepts (fun node => (node.optional readMetric).map Option.join) node ↔ MetricFits node := by
  constructor
  · rintro ⟨metric, reads⟩
    exact ⟨_, metric_of_optional clean.untagged reads⟩
  · rintro ⟨written, metric⟩
    have accepts : Accepts (·.optional readMetric) node := by
      rw [accepts_optional clean]
      cases metric with
      | null isNull => exact Or.inl isNull
      | blank means blank =>
          exact Or.inr ⟨none, by simp only [readMetric, means, bind, Except.bind, if_pos blank]; rfl⟩
      | @number _ metric means =>
          have fits : (0 : Int) ≤ metric.toNat ∧ (metric.toNat : Int) < UInt32.size := by
            have := metric.toNat_lt_size
            omega
          exact Or.inr ⟨_, by simp only [readMetric, means, bind, Except.bind, if_pos fits]; rfl⟩
      | @numeral _ text metric means filled reads =>
          exact Or.inr ⟨some metric, by
            simp only [readMetric, means, bind, Except.bind, filled, Bool.false_eq_true, if_false, reads]
            rfl⟩
    exact accepts.map _

/-- A plain scalar is read as an unsigned integer of 32 bits if its numeral is one. -/
theorem unsigned32_plain {text : String} {version : UInt32} :
    (Node.scalar none .plain text).unsigned32 = .ok version ↔
      Yaml.Plain.unsigned64? text.toList = some version.toNat := by
  simp only [Node.unsigned32, Node.isNumeric, beq_self_eq_true, Bool.true_or, if_true]
  cases Yaml.Plain.unsigned64? text.toList with
  | none => simp
  | some n =>
      simp only [Option.some.injEq]
      split
      next fits => rw [Except.ok.injEq, ← UInt32.toNat_inj, UInt32.toNat_ofNat_of_lt' fits]
      next large =>
        constructor
        · intro reads
          cases reads
        · rintro rfl
          exact (large version.toNat_lt_size).elim

/-- Where a version is wanted, the versions are read. -/
theorem unsigned32_eq_ok (untagged : node.untagged = true) {version : UInt32} :
    node.unsigned32 = .ok version ↔ MeansVersion node version := by
  cases node with
  | scalar tag form text =>
      rw [Node.untagged, Option.isNone_iff_eq_none] at untagged
      subst untagged
      by_cases plain : form = .plain
      · subst plain
        rw [unsigned32_plain, Node.unsigned64?_eq_some, ← @Node.ofMeaning_eq_int text]
        constructor
        · rintro ⟨means, unsigned⟩
          exact ⟨means, fun _ same => Except.ok.inj same ▸ unsigned⟩
        · rintro ⟨means, unsigned⟩
          exact ⟨means, unsigned text rfl⟩
      · constructor
        · intro reads
          simp [Node.unsigned32, Node.isNumeric, plain] at reads
        · intro means
          have value := means.value
          rw [Node.tree, Node.scalarTree_none, if_neg plain] at value
          cases value
  | seq tag items =>
      constructor
      · intro reads
        cases reads
      · intro means
        obtain ⟨_, _, same⟩ := Node.tree_seq means.value
        cases same
  | map tag entries =>
      constructor
      · intro reads
        cases reads
      · intro means
        obtain ⟨_, _, same⟩ := Node.tree_map means.value
        cases same
  | broken fault =>
      constructor
      · intro reads
        cases reads
      · intro means
        cases means.value
  | refused fault =>
      constructor
      · intro reads
        cases reads
      · intro means
        cases means.value

/-! ## Routes -/

/-- A field of a route goes through behind those before it. -/
theorem RouteDraft.step_goes {draft : RouteDraft} {fields : List (String × Node)}
    (taken : draft.Taken fields) (fresh : Yaml.Plain.meaning key.toList = .text →
      ∀ field ∈ fields, field.1 ≠ key)
    (clean : value.Clean) (shape : RouteField key value) (fits : key = "metric" → MetricFits value) :
    ∃ after, draft.step key value = .ok after := by
  unfold RouteDraft.step
  split
  · exact (taken.destination.once (fresh (by decide +kernel)) (shape (by decide))).map _
  · exact (taken.gateway.once (fresh (by decide +kernel)) (shape (by decide))).map _
  · exact (taken.metric.once (fresh (by decide +kernel)) ((accepts_metric clean).mpr (fits rfl))).map _
  · exact ⟨draft, by rw [clean.pass]; rfl⟩

/-- What is written for a route has its metric. -/
theorem MeansRoute.fits {route : Node} {written : Tree} (means : MeansRoute route written) :
    RouteFits route := by
  intro metric found
  cases means with
  | mk _ _ _ _ hasMetric =>
      rw [found] at hasMetric
      exact ⟨_, hasMetric⟩

/-- A route is read if and only if its metric fits. -/
theorem accepts_route {route : Node} (clean : route.Clean) (shape : RouteShape route) :
    Accepts Route.ofNode route ↔ RouteFits route := by
  constructor
  · rintro ⟨result, reads⟩
    exact (meansRoute_of_ofNode route result clean.untagged reads).fits
  · intro fits
    have start : RouteDraft.Taken {} [] := ⟨rfl, rfl, rfl⟩
    obtain ⟨entries, draft, isMap, reads, taken⟩ := clean.readRecord shape.record start
      fun {draft done key value} taken fresh field shape => by
        obtain ⟨after, step⟩ := draft.step_goes taken fresh (clean.of_field field) shape fun same =>
          fits value (same ▸ clean.field?_eq field (same ▸ by decide +kernel))
        exact ⟨after, step, taken.step step⟩
    obtain ⟨takesTo, takesVia, _⟩ := taken
    rw [← Node.field?_of_entries isMap] at takesTo takesVia
    obtain ⟨destination, hasDestination⟩ := takesTo.exists_taken (shape.complete _ (by decide))
    obtain ⟨gateway, hasGateway⟩ := takesVia.exists_taken (shape.complete _ (by decide))
    refine ⟨⟨destination, gateway, draft.metric.join⟩, ?_⟩
    simp only [Route.ofNode, isMap, reads, hasDestination, hasGateway, Yaml.require, bind, Except.bind]
    rfl

/-! ## Values that are carried along -/

/-- None of the values repeats a key. -/
def AllDistinct (values : List (String × Tree)) : Prop :=
  ∀ field ∈ values, field.2.keysDistinct = true

theorem AllDistinct.carry {values after : List (String × Tree)} (before : AllDistinct values)
    (clean : value.Clean) (carries : carry values key value = .ok after) : AllDistinct after := by
  obtain ⟨tree, means, rfl⟩ := map_eq_ok carries
  obtain ⟨_, denotes, distinct⟩ := clean
  cases means.symm.trans denotes.tree
  intro field member
  rcases List.mem_append.mp member with old | new
  · exact before field old
  · rw [List.mem_singleton.mp new]
    exact distinct

theorem AllDistinct.carried {values : List (String × Tree)} (distinct : AllDistinct values) :
    ∃ fields, carried values = .ok fields :=
  ⟨_, if_pos (List.all_eq_true.mpr distinct)⟩

/-! ## Entries -/

/-- A field of an entry goes through behind those before it. -/
theorem EntryDraft.step_goes {draft : EntryDraft} {fields : List (String × Node)}
    (taken : draft.Taken fields) (fresh : Yaml.Plain.meaning key.toList = .text →
      ∀ field ∈ fields, field.1 ≠ key)
    (clean : value.Clean) (shape : EntryField key value)
    (flags : ∀ family : Family, key = family.dhcpKey → FlagFits value)
    (metrics : key = "routes" → ∀ route, value.HasItem route → RouteFits route) :
    ∃ after, draft.step key value = .ok after := by
  have flag {value : Node} (clean : value.Clean) (fits : FlagFits value) :
      Accepts (·.optional readFlag) value :=
    (accepts_optional clean).mpr ((Node.IsOptional.congr accepts_flag).mpr fits)
  unfold EntryDraft.step
  split
  · exact (taken.addresses.once (fresh (by decide +kernel))
      (accepts_list.mpr (shape.addresses rfl))).map _
  · exact (taken.gateway4.once (fresh (by decide +kernel))
      ((accepts_optional clean).mpr (shape.gateways .v4 rfl))).map _
  · exact (taken.gateway6.once (fresh (by decide +kernel))
      ((accepts_optional clean).mpr (shape.gateways .v6 rfl))).map _
  · exact (taken.dhcp4.once (fresh (by decide +kernel)) (flag clean (flags .v4 rfl))).map _
  · exact (taken.dhcp6.once (fresh (by decide +kernel)) (flag clean (flags .v6 rfl))).map _
  · have list : value.IsOptional (Accepts (·.list Route.ofNode)) := by
      rcases shape.routes rfl with null | ⟨items, isList, shapes⟩
      · exact Or.inl null
      · refine Or.inr (accepts_list.mpr ⟨items, isList, fun route member => ?_⟩)
        have item : value.HasItem route := ⟨items, isList, member⟩
        exact (accepts_route (clean.of_item item) (shapes route member)).mpr (metrics rfl route item)
    exact (taken.routes.once (fresh (by decide +kernel)) ((accepts_optional clean).mpr list)).map _
  · obtain ⟨tree, means⟩ := clean.accepts_tree
    exact ⟨_, by rw [carry, means]; rfl⟩

/-- An entry goes on carrying values without repeated keys. -/
theorem EntryDraft.step_distinct {draft after : EntryDraft} (before : AllDistinct draft.extra)
    (clean : value.Clean) (step : draft.step key value = .ok after) : AllDistinct after.extra := by
  unfold EntryDraft.step at step
  split at step
  case h_7 =>
    obtain ⟨extra, carries, rfl⟩ := map_eq_ok step
    exact before.carry clean carries
  all_goals
    obtain ⟨field, _, rfl⟩ := map_eq_ok step
    exact before

/-- What is written for an entry has its flags and routes. -/
theorem NormalEntry.fits {entry : Node} {written : Named Tree}
    (normal : NormalEntry entry.field? written) : EntryFits entry := by
  constructor
  · intro family flag found
    have setting := normal.flags family
    rw [found] at setting
    generalize List.lookup family.dhcpKey written = result at setting
    cases setting with
    | null isNull => exact Or.inl isNull
    | given _ means => exact Or.inr ⟨_, means⟩
  · intro routes route found member
    have setting := normal.routes
    rw [found] at setting
    generalize List.lookup "routes" written = result at setting
    cases setting with
    | null isNull => exact (Node.not_hasItem_of_null isNull member).elim
    | given _ means =>
        obtain ⟨items, _, isList, _, each⟩ := means
        obtain ⟨_, isList', member⟩ := member
        cases isList.symm.trans isList'
        obtain ⟨_, _, means⟩ := related_of_mem each member
        exact means.fits

/-- An entry is read if and only if its flags fit and the metrics of its routes. -/
theorem accepts_entry {entry : Node} (clean : entry.Clean) (shape : EntryShape entry) :
    Accepts Entry.ofNode entry ↔ EntryFits entry := by
  constructor
  · rintro ⟨result, reads⟩
    exact (Entry.normal_of_ofNode clean.untagged reads).fits
  · intro fits
    have start : EntryDraft.Taken {} [] ∧ AllDistinct ({} : EntryDraft).extra :=
      ⟨⟨rfl, rfl, rfl, rfl, rfl, rfl, fun _ _ => rfl⟩, fun _ member => nomatch member⟩
    obtain ⟨entries, draft, isMap, reads, _, distinct⟩ := clean.readRecord
      (P := fun draft fields => EntryDraft.Taken draft fields ∧ AllDistinct draft.extra) shape start
      fun {draft done key value} before fresh field shape => by
        obtain ⟨taken, distinct⟩ := before
        have valueClean := clean.of_field field
        obtain ⟨after, step⟩ := draft.step_goes taken fresh valueClean shape
          (fun family same => fits.flags family value
            (same ▸ clean.field?_eq field (same ▸ by cases family <;> decide +kernel)))
          (fun same route => fits.routes value route
            (same ▸ clean.field?_eq field (same ▸ by decide +kernel)))
        exact ⟨after, step, taken.step step, EntryDraft.step_distinct distinct valueClean step⟩
    obtain ⟨extra, carries⟩ := distinct.carried
    exact ⟨_, by simp only [Entry.ofNode, isMap, reads, carries, bind, Except.bind]; rfl⟩

/-- Null has nothing that could not fit. -/
theorem entryFits_of_null {entry : Node} (isNull : entry.tree = .ok .null) : EntryFits entry where
  flags _ _ found := (Node.not_hasField_of_null isNull (Node.hasField_of_field? found)).elim
  routes _ _ found := (Node.not_hasField_of_null isNull (Node.hasField_of_field? found)).elim

/-! ## The network -/

/-- All entries that were read fit, also those of which another with the same name came later. -/
theorem fits_of_readEthernets {ethernets : Node} {taken : Named (Option Entry)}
    (clean : ethernets.Clean) (reads : readEthernets ethernets = .ok taken) (name : String)
    (entry : Node) (field : ethernets.HasField name entry) : EntryFits entry := by
  have entryClean := clean.of_field field
  obtain ⟨entries, isMap, reads⟩ := bind_eq_ok reads
  obtain ⟨_, isMap', member⟩ := field
  cases isMap.symm.trans isMap'
  obtain ⟨_, _, step⟩ := readRecord_field reads member
  obtain ⟨result, readsEntry, _⟩ := map_eq_ok step
  rcases Node.optional_eq_ok readsEntry with ⟨absent, _⟩ | ⟨_, _, readsEntry, _⟩
  · exact entryFits_of_null ((Node.tree_eq_null entryClean.untagged absent).mpr rfl)
  · exact (Entry.normal_of_ofNode entryClean.untagged readsEntry).fits

/-- The entries of all interfaces are read if and only if all of them fit. -/
theorem accepts_ethernets {ethernets : Node} (clean : ethernets.Clean)
    (shape : ethernets.IsRecord fun _ => (·.IsOptional EntryShape)) :
    Accepts readEthernets ethernets ↔
      ∀ name entry, ethernets.HasField name entry → EntryFits entry := by
  constructor
  · rintro ⟨taken, reads⟩
    exact fits_of_readEthernets clean reads
  · intro fits
    obtain ⟨entries, after, isMap, reads, _⟩ := clean.readRecord
      (P := fun (_ : Named (Option Entry)) _ => True) shape trivial
      fun {ethernets _ name entry} _ _ field shape => by
        have entryClean := clean.of_field field
        have accepts : Accepts (·.optional Entry.ofNode) entry := by
          rw [accepts_optional entryClean]
          exact shape.imp_right fun shape =>
            (accepts_entry entryClean shape).mpr (fits name entry field)
        obtain ⟨after, step⟩ := accepts.map fun entry => ethernets.put name entry
        exact ⟨after, step, trivial⟩
    exact ⟨after, by simp only [readEthernets, isMap, bind, Except.bind]; exact reads⟩

/-- The version that has been taken up is that under its key. -/
theorem NetworkDraft.step_version {draft after : NetworkDraft} {fields : List (String × Node)}
    (before : Reads Node.unsigned32 (Named.last? fields "version") draft.version)
    (step : draft.step key value = .ok after) :
    Reads Node.unsigned32 (Named.last? (fields ++ [(key, value)]) "version") after.version := by
  unfold NetworkDraft.step at step
  split at step
  case h_1 =>
    obtain ⟨seen, once, rfl⟩ := map_eq_ok step
    obtain ⟨result, reads, rfl⟩ := readOnce_eq_ok once
    exact .own reads
  case h_4 noVersion _ _ =>
    obtain ⟨_, _, rfl⟩ := map_eq_ok step
    exact before.other (Ne.symm noVersion)
  all_goals
    obtain ⟨_, _, rfl⟩ := map_eq_ok step
    exact before.other (by decide)

/-- A network goes on carrying values without repeated keys. -/
theorem NetworkDraft.step_distinct {draft after : NetworkDraft}
    (before : AllDistinct draft.sections) (clean : value.Clean)
    (step : draft.step key value = .ok after) : AllDistinct after.sections := by
  unfold NetworkDraft.step at step
  split at step
  case h_4 =>
    obtain ⟨sections, carries, rfl⟩ := map_eq_ok step
    exact before.carry clean carries
  all_goals
    obtain ⟨field, _, rfl⟩ := map_eq_ok step
    exact before

/-- A field of a network goes through behind those before it. -/
theorem NetworkDraft.step_goes {draft : NetworkDraft} {fields : List (String × Node)}
    (taken : draft.Taken fields)
    (version : Reads Node.unsigned32 (Named.last? fields "version") draft.version)
    (fresh : Yaml.Plain.meaning key.toList = .text → ∀ field ∈ fields, field.1 ≠ key)
    (clean : value.Clean) (shape : NetworkField key value)
    (isVersion : key = "version" → ∃ version, MeansVersion value version)
    (entries : key = "ethernets" → ∀ name entry, value.HasField name entry → EntryFits entry) :
    ∃ after, draft.step key value = .ok after := by
  unfold NetworkDraft.step
  split
  · obtain ⟨number, means⟩ := isVersion rfl
    exact (version.once (fresh (by decide +kernel))
      ⟨number, (unsigned32_eq_ok clean.untagged).mpr means⟩).map _
  · exact (taken.renderer.once (fresh (by decide +kernel))
      ((accepts_optional clean).mpr (shape.renderer rfl))).map _
  · exact (taken.ethernets.once (fresh (by decide +kernel))
      ((accepts_ethernets clean (shape.ethernets rfl)).mpr (entries rfl))).map _
  · obtain ⟨tree, means⟩ := clean.accepts_tree
    exact ⟨_, by rw [carry, means]; rfl⟩

/-- What a network that was read has of the parts under its keys. -/
structure Network.Taken (network : Network) (node : Node) : Prop where
  version : ∃ version, node.field? "version" = some version ∧
    version.unsigned32 = .ok network.version
  ethernets : ∃ taken, Reads readEthernets (node.field? "ethernets") taken ∧
    network.ethernets = taken.getD []

theorem Network.taken_of_ofNode {network : Network} (reads : Network.ofNode node = .ok network) :
    network.Taken node := by
  obtain ⟨entries, isMap, reads⟩ := bind_eq_ok reads
  obtain ⟨draft, record, reads⟩ := bind_eq_ok reads
  obtain ⟨version, hasVersion, reads⟩ := bind_eq_ok reads
  obtain ⟨sections, _, same⟩ := bind_eq_ok reads
  cases same
  have start : NetworkDraft.Taken {} [] := ⟨rfl, rfl, fun _ _ => rfl⟩
  obtain ⟨_, takesEthernets, _⟩ := readRecord_run NetworkDraft.Taken.step start record
  have startVersion : Reads Node.unsigned32 (Named.last? [] "version")
    ({} : NetworkDraft).version := rfl
  have takesVersion := readRecord_run (P := fun draft fields =>
    Reads Node.unsigned32 (Named.last? fields "version") draft.version)
    NetworkDraft.step_version startVersion record
  rw [← Node.field?_of_entries isMap] at takesEthernets takesVersion
  rw [require_eq_ok hasVersion] at takesVersion
  refine ⟨?_, draft.ethernets, takesEthernets, rfl⟩
  rcases takesVersion.cases with ⟨_, none⟩ | ⟨part, _, found, readsPart, same⟩
  · cases none
  · cases same
    exact ⟨part, found, readsPart⟩

/-- A network is read if and only if it has a version and all its entries fit. -/
theorem accepts_network {network : Node} (clean : network.Clean)
    (shape : network.IsRecord NetworkField) :
    Accepts Network.ofNode network ↔ NetworkFits network := by
  constructor
  · rintro ⟨result, reads⟩
    have taken := Network.taken_of_ofNode reads
    constructor
    · obtain ⟨version, found, reads⟩ := taken.version
      have untagged := Node.untagged_of_field? clean.untagged found
      exact ⟨_, version, found, (unsigned32_eq_ok untagged).mp reads⟩
    · intro ethernets name entry found field
      have ethernetsClean := clean.of_field (Node.hasField_of_field? found)
      obtain ⟨_, takes, _⟩ := taken.ethernets
      rcases takes.cases with ⟨missing, _⟩ | ⟨_, _, found', reads, _⟩
      · cases found.symm.trans missing
      · cases found.symm.trans found'
        exact fits_of_readEthernets ethernetsClean reads name entry field
  · intro fits
    obtain ⟨number, version, found, means⟩ := fits.version
    have start : NetworkDraft.Taken {} [] ∧
        Reads Node.unsigned32 (Named.last? [] "version") ({} : NetworkDraft).version ∧
        AllDistinct ({} : NetworkDraft).sections :=
      ⟨⟨rfl, rfl, fun _ _ => rfl⟩, rfl, fun _ member => nomatch member⟩
    obtain ⟨entries, draft, isMap, reads, _, takesVersion, distinct⟩ := clean.readRecord
      (P := fun draft fields => NetworkDraft.Taken draft fields ∧
        Reads Node.unsigned32 (Named.last? fields "version") draft.version ∧
        AllDistinct draft.sections) shape start
      fun {draft done key value} before fresh field shape => by
        obtain ⟨taken, takesVersion, distinct⟩ := before
        have valueClean := clean.of_field field
        obtain ⟨after, step⟩ := draft.step_goes taken takesVersion fresh valueClean shape
          (fun same => by
            subst same
            cases found.symm.trans (clean.field?_eq field (by decide +kernel))
            exact ⟨number, means⟩)
          (fun same name entry => fits.entries value name entry
            (same ▸ clean.field?_eq field (same ▸ by decide +kernel)))
        exact ⟨after, step, taken.step step, NetworkDraft.step_version takesVersion step,
          NetworkDraft.step_distinct distinct valueClean step⟩
    rw [← Node.field?_of_entries isMap, found] at takesVersion
    obtain ⟨number, hasVersion⟩ := takesVersion.exists_taken (by simp)
    obtain ⟨sections, carries⟩ := distinct.carried
    exact ⟨_, by
      simp only [Network.ofNode, isMap, reads, hasVersion, Yaml.require, carries, bind, Except.bind]
      rfl⟩

/-- A whole text is read if and only if its network is. -/
theorem accepts_root {root network : Node} (clean : root.Clean) (shape : RootShape root)
    (found : root.field? "network" = some network) :
    Accepts Network.ofRoot root ↔ NetworkFits network := by
  have hasNetwork := Node.hasField_of_field? found
  have isNetwork := accepts_network (clean.of_field hasNetwork) (shape.record.field hasNetwork rfl)
  constructor
  · rintro ⟨result, reads⟩
    obtain ⟨part, found', reads⟩ := Document.field?_of_ofRoot reads
    cases found.symm.trans found'
    exact isNetwork.mp ⟨result, reads⟩
  · intro fits
    have start : Reads Network.ofNode (Named.last? [] "network") none := rfl
    obtain ⟨entries, seen, isMap, reads, taken⟩ := clean.readRecord
      (P := fun seen fields => Reads Network.ofNode (Named.last? fields "network") seen)
      shape.record start fun {seen done key value} taken fresh field _ => by
        have goes : ∃ after, stepRoot seen key value = .ok after := by
          unfold stepRoot
          split
          next same =>
            subst same
            cases found.symm.trans (clean.field?_eq field (by decide +kernel))
            exact taken.once (fresh (by decide +kernel)) (isNetwork.mpr fits)
          next => exact ⟨seen, by rw [(clean.of_field field).pass]; rfl⟩
        obtain ⟨after, step⟩ := goes
        exact ⟨after, step, Document.stepRoot_reads taken step⟩
    rw [← Node.field?_of_entries isMap] at taken
    obtain ⟨result, some⟩ := taken.exists_taken shape.complete
    exact ⟨result, by simp only [Network.ofRoot, isMap, reads, some, Yaml.require, bind, Except.bind]⟩

end NetplanEditor
