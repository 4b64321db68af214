import NetplanEditor.Proofs.Document.Acceptance
import NetplanEditor.Proofs.Text.ByteOrder

/-!
# Which texts hold the document of an interface

What becomes of a text comes in a strict order (`Verdict`): what cannot be read is reported before the
version is looked at, and the version before the names of the interfaces. Of other interfaces the first
in the order of the bytes is reported, and a text that has none holds a document, with the entry that
is given for its interface or an empty one (`parse_verdict`).
-/

namespace NetplanEditor

open Yaml (Node Reads Tree Fault)

/-- The part that is given for the interface. -/
def entryOf (network : Node) (interface : String) : Option Node :=
  (network.field? "ethernets").bind (·.field? interface)

namespace Document

/-- The document is for the interface and has its settings, and is empty if none are given. -/
structure Describes (document : Document) (interface : String) (network : Node) : Prop where
  isFor : document.interface = interface
  settings : NormalEntry (fun name => (entryOf network interface).bind (·.field? name))
    document.entry.settings
  empty : (∀ part, entryOf network interface = some part → part.tree = .ok .null) →
    document.entry = .empty

/-- What becomes of a text of the right shape. -/
inductive Verdict (interface : String) (network : Node) : Except DocumentError Document → Prop
  | unreadable {fault : Fault} (unfit : ¬ NetworkFits network) :
    Verdict interface network (.error (.unreadable fault))
  | unsupported {version : UInt32} (fits : NetworkFits network) (isGiven : HasVersion network version)
    (other : version ≠ 2) : Verdict interface network (.error (.unsupportedVersion version))
  | foreign {found : String} (fits : NetworkFits network) (current : HasVersion network 2)
    (isGiven : entryOf network found ≠ none) (differs : found ≠ interface)
    (least : ∀ other, entryOf network other ≠ none → other ≠ interface →
      Text.bytes found ≤ Text.bytes other) :
    Verdict interface network (.error (.foreignInterface interface found))
  | accepted {document : Document} (fits : NetworkFits network) (current : HasVersion network 2)
    (own : ∀ name, entryOf network name ≠ none → name = interface)
    (describes : document.Describes interface network) : Verdict interface network (.ok document)

end Document

/-! ## What a network has -/

variable {node : Node}

namespace Network.Taken

variable {network : Network} {interface : String}

theorem sorted (taken : network.Taken node) : network.ethernets.Sorted := by
  obtain ⟨_, takes, same⟩ := taken.ethernets
  rw [same]
  rcases takes.cases with ⟨_, rfl⟩ | ⟨_, ethernets, _, reads, rfl⟩
  · exact Named.sorted_nil
  · obtain ⟨entries, _, record⟩ := bind_eq_ok reads
    refine readRecord_inv (P := Named.Sorted) ?_ Named.sorted_nil record
    intro before name part after sorted step
    obtain ⟨entry, _, rfl⟩ := map_eq_ok step
    exact Named.sorted_put sorted name entry

theorem entry (taken : network.Taken node) (name : String) :
    Reads (·.optional Entry.ofNode) (entryOf node name) (network.ethernets.lookup name) := by
  obtain ⟨_, takes, same⟩ := taken.ethernets
  rw [same, entryOf]
  rcases takes.cases with ⟨missing, rfl⟩ | ⟨_, _, found, reads, rfl⟩
  · rw [missing]
    rfl
  · rw [found]
    exact reads_of_readEthernets reads name

/-- The interfaces of a network are those that have a part. -/
theorem mem_names (taken : network.Taken node) (name : String) :
    name ∈ network.ethernets.names ↔ entryOf node name ≠ none := by
  rw [← not_iff_not, ← Named.lookup_eq_none, not_not]
  rcases (taken.entry name).cases with ⟨missing, none⟩ | ⟨_, _, found, _, same⟩
  · simp [missing, none]
  · simp [found, same]

/-- The entry that was read for an interface is the one that its document has. -/
theorem describes (taken : network.Taken node) (untagged : node.untagged = true)
    {document : Document} (isFor : document.interface = interface)
    (same : document.entry = (network.ethernets.lookup interface).join.getD .empty) :
    document.Describes interface node := by
  have free (part : Node) (found : entryOf node interface = some part) : part.untagged = true := by
    obtain ⟨ethernets, hasEthernets, found⟩ := Option.bind_eq_some_iff.mp found
    exact Node.untagged_of_field? (Node.untagged_of_field? untagged hasEthernets) found
  refine ⟨isFor, ?_, fun allNull => ?_⟩
  · rw [same]
    exact Entry.normal_of_reads (taken.entry interface) free
  · rw [same]
    rcases (taken.entry interface).cases with ⟨_, none⟩ | ⟨part, result, found, reads, some⟩
    · rw [none]
      rfl
    · rcases Node.optional_eq_ok reads with ⟨_, rfl⟩ | ⟨_, there, _, _⟩
      · rw [some]
        rfl
      · cases (Node.tree_eq_null (free part found) there).mp (allNull part found)

end Network.Taken

/-! ## Documents -/

namespace Document

/-- A network that was read is judged by its version and then by the names of its interfaces. -/
theorem ofNetwork_verdict {network : Network} (interface : String) (untagged : node.untagged = true)
    (fits : NetworkFits node) (taken : network.Taken node) :
    Verdict interface node (ofNetwork interface network).value := by
  obtain ⟨part, found, reads⟩ := taken.version
  have isGiven : HasVersion node network.version :=
    ⟨part, found, (unsigned32_eq_ok (Node.untagged_of_field? untagged found)).mp reads⟩
  unfold ofNetwork
  split
  next other => exact .unsupported fits isGiven other
  next same =>
    have current : HasVersion node 2 := by
      rw [not_not.mp same] at isGiven
      exact isGiven
    split
    next found isFirst =>
      have differs : found ≠ interface := by simpa using List.find?_some isFirst
      refine .foreign fits current ((taken.mem_names found).mp (List.mem_of_find?_eq_some isFirst))
        differs fun other isGiven differs => Text.bytes_le_bytes.mpr ?_
      exact taken.sorted.le_of_find? isFirst ((taken.mem_names other).mpr isGiven)
        (decide_eq_true differs)
    next noOther =>
      have own (name : String) (isGiven : entryOf node name ≠ none) : name = interface := by
        simpa using List.find?_eq_none.mp noOther name ((taken.mem_names name).mpr isGiven)
      split
      next entry found =>
        exact .accepted fits current own (taken.describes untagged rfl (by rw [found]; rfl))
      next missing =>
        exact .accepted fits current own (taken.describes untagged rfl (by rw [missing]; rfl))

/-- A network that has a document has no interface but its own. -/
theorem own_of_ofNetwork {network : Network} {interface : String} {document : Document}
    (ok : (ofNetwork interface network).value = .ok document) :
    ∀ name ∈ network.ethernets.names, name = interface := by
  unfold ofNetwork at ok
  split at ok
  · cases ok
  split at ok
  · cases ok
  next noOther => simpa using noOther

/-- What a text of the right shape comes to, in a strict order: it is unreadable if the version is no
unsigned integer or a flag or a metric in any entry says nothing; otherwise its version is not
supported; otherwise the first interface beside the one asked for is reported; and otherwise it holds
the document with the entry that is given for the interface. No text whatever holds a document if it
has the entry of another interface, and the entry of a document is read from its own part. -/
theorem parse_verdict (interface text : String) :
    (∀ root tree, Yaml.readText Except.ok text = .ok root → root.Denotes tree →
      tree.keysDistinct = true → RootShape root →
      ∃ network, root.field? "network" = some network ∧
        Verdict interface network (parse interface text).value) ∧
    ∀ document, (parse interface text).value = .ok document →
      ∃ root network entry, Yaml.readText Except.ok text = .ok root ∧
        root.field? "network" = some network ∧
        (∀ name, entryOf network name ≠ none → name = interface) ∧
        Reads (·.optional Entry.ofNode) (entryOf network interface) entry ∧
        document.interface = interface ∧ document.entry = entry.join.getD .empty := by
  constructor
  · intro root tree source denotes distinct shape
    have clean : root.Clean := ⟨tree, denotes, distinct⟩
    obtain ⟨network, found⟩ := Option.ne_none_iff_exists'.mp shape.complete
    refine ⟨network, found, ?_⟩
    have accepts := accepts_root clean shape found
    unfold parse
    rw [Yaml.readText_of_ok source]
    cases reads : Network.ofRoot root with
    | error fault =>
        refine .unreadable fun fits => ?_
        obtain ⟨result, ok⟩ := accepts.mpr fits
        cases reads.symm.trans ok
    | ok result =>
        obtain ⟨part, found', readsPart⟩ := field?_of_ofRoot reads
        cases found.symm.trans found'
        exact ofNetwork_verdict interface (Node.untagged_of_field? clean.untagged found)
          (accepts.mp ⟨result, reads⟩) (Network.taken_of_ofNode readsPart)
  · intro document ok
    unfold parse at ok
    split at ok
    · cases ok
    next result reads =>
      obtain ⟨root, source, reads⟩ := Yaml.readText_eq_ok reads
      obtain ⟨network, found, reads⟩ := field?_of_ofRoot reads
      have taken := Network.taken_of_ofNode reads
      obtain rfl := ofNetwork_eq_ok ok
      exact ⟨root, network, _, source, found,
        fun name isGiven => own_of_ofNetwork ok name ((taken.mem_names name).mpr isGiven),
        taken.entry interface, rfl, rfl⟩

/-- The text has no tags, means a value without repeated keys, and is of the right shape. -/
def shaped (text : String) : Bool :=
  match Yaml.readText Except.ok text with
  | .error _ => false
  | .ok root => root.untagged && root.tree.toOption.any Tree.keysDistinct && decide (RootShape root)

theorem of_shaped {text : String} (check : shaped text = true) :
    ∃ root tree, Yaml.readText Except.ok text = .ok root ∧ root.Denotes tree ∧
      tree.keysDistinct = true ∧ RootShape root := by
  unfold shaped at check
  split at check
  · cases check
  next root source =>
    simp only [Bool.and_eq_true, Option.any_eq_true, decide_eq_true_eq] at check
    obtain ⟨⟨untagged, tree, means, distinct⟩, shape⟩ := check
    refine ⟨root, tree, source, ⟨untagged, ?_⟩, distinct, shape⟩
    cases value : root.tree <;> rw [value] at means <;> cases means
    rfl

/-- A text with the entries of two other interfaces, one of them with an older flag. -/
def crowded : String :=
  "network:\n  version: 2\n  ethernets:\n    é:\n      dhcp4: ' ON '\n    z: ~\n"

/-- A text of another version with the entry of another interface, in which a metric is too large. -/
def outsized : String :=
  "network:\n  version: 3\n  ethernets:\n    z:\n      routes:\n      - to: default\n" ++
    "        via: fe80::1\n        metric: 4294967296\n"

/-- A text with digits in quotes and the same number as the names of two entries. -/
def twoTens : String :=
  "network:\n  version: 2\n  ethernets:\n    '10':\n      dhcp4: true\n    10:\n"

/-- The name with the least bytes is reported, a metric that is too large before the version, and a
text that holds a document has no other entry. -/
theorem parse_verdict_crowded :
    (∃ root tree network, Yaml.readText Except.ok crowded = .ok root ∧ root.Denotes tree ∧
      tree.keysDistinct = true ∧ RootShape root ∧ root.field? "network" = some network ∧
      Verdict "eth0" network (.error (.foreignInterface "eth0" "z"))) ∧
    (∃ root tree network, Yaml.readText Except.ok outsized = .ok root ∧ root.Denotes tree ∧
      tree.keysDistinct = true ∧ RootShape root ∧ root.field? "network" = some network ∧
      Verdict "eth0" network (.error (.unreadable (.wrongKind "a metric")))) ∧
    ∃ document network, (parse "10" twoTens).value = .ok document ∧
      ∀ name, entryOf network name ≠ none → name = "10" := by
  refine ⟨?_, ?_, ?_⟩
  · obtain ⟨root, tree, source, denotes, distinct, shape⟩ :=
      of_shaped (by decide +kernel : shaped crowded = true)
    obtain ⟨network, found, verdict⟩ :=
      (parse_verdict "eth0" crowded).1 root tree source denotes distinct shape
    have refused : (parse "eth0" crowded).value = .error (.foreignInterface "eth0" "z") :=
      (map_eq_error (f := fun _ => ())).mp (by decide +kernel)
    rw [refused] at verdict
    exact ⟨root, tree, network, source, denotes, distinct, shape, found, verdict⟩
  · obtain ⟨root, tree, source, denotes, distinct, shape⟩ :=
      of_shaped (by decide +kernel : shaped outsized = true)
    obtain ⟨network, found, verdict⟩ :=
      (parse_verdict "eth0" outsized).1 root tree source denotes distinct shape
    have refused : (parse "eth0" outsized).value = .error (.unreadable (.wrongKind "a metric")) :=
      (map_eq_error (f := fun _ => ())).mp (by decide +kernel)
    rw [refused] at verdict
    exact ⟨root, tree, network, source, denotes, distinct, shape, found, verdict⟩
  · have accepted : (parse "10" twoTens).value.map (fun _ => ()) = .ok () := by decide +kernel
    obtain ⟨document, parses, _⟩ := map_eq_ok accepted
    obtain ⟨_, network, _, _, _, own, _⟩ := (parse_verdict "10" twoTens).2 document parses
    exact ⟨document, network, parses, own⟩

/-- A text with a version that is zero, written with a minus sign. -/
def negativeZero : String := "network:\n  version: -0\n"

/-- What the two texts mean. -/
def zeroTree : Tree := .map [(.text "network", .map [(.text "version", .int 0)])]

def tensTree : Tree :=
  .map [(.text "network", .map [(.text "version", .int 2), (.text "ethernets",
    .map [(.text "10", .map [(.text "dhcp4", .bool true)]), (.int 10, .null)])])]

/-- A text of the right shape is not judged by its value alone. A version that is an unsigned integer
of 32 bits can be unreadable, and an entry that is given for the interface as a text can be replaced by
one that is given for the same digits as a number. -/
theorem parse_not_by_value :
    (∃ root fault, Yaml.readText Except.ok negativeZero = .ok root ∧ root.Denotes zeroTree ∧
      zeroTree.keysDistinct = true ∧ RootShape root ∧
      (parse "eth0" negativeZero).value = .error (.unreadable fault)) ∧
    ∃ root document, Yaml.readText Except.ok twoTens = .ok root ∧ root.Denotes tensTree ∧
      tensTree.keysDistinct = true ∧ RootShape root ∧
      (parse "10" twoTens).value = .ok document ∧ document.entry.dhcp4 = none := by
  constructor
  · obtain ⟨root, source, denotes⟩ :=
      Tree.IsMeantBy.of_check (by decide +kernel : zeroTree.isMeantBy negativeZero = true)
    obtain ⟨_, _, same, _, _, shape⟩ := of_shaped (by decide +kernel : shaped negativeZero = true)
    cases source.symm.trans same
    have refused : (parse "eth0" negativeZero).value =
        .error (.unreadable (.wrongKind "an integer")) :=
      (map_eq_error (f := fun _ => ())).mp (by decide +kernel)
    exact ⟨root, _, source, denotes, by decide, shape, refused⟩
  · obtain ⟨root, source, denotes⟩ :=
      Tree.IsMeantBy.of_check (by decide +kernel : tensTree.isMeantBy twoTens = true)
    obtain ⟨_, _, same, _, _, shape⟩ := of_shaped (by decide +kernel : shaped twoTens = true)
    cases source.symm.trans same
    have flag : (parse "10" twoTens).value.map (·.entry.dhcp4) = .ok none := by decide +kernel
    obtain ⟨document, parses, none⟩ := map_eq_ok flag
    exact ⟨root, document, source, denotes, by decide, shape, parses, none⟩

end Document

end NetplanEditor
