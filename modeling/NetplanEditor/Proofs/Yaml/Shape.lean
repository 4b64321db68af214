import Mathlib.Data.List.Pairwise
import NetplanEditor.Proofs.Yaml.Fields

/-!
# The shapes that readers accept

A reader goes into the parts of a part, and fails on the first that is not of the shape it wants. So
what is accepted can be told part by part (`accepts_optional`, `accepts_list`), and for a record field
by field: if a record is read, every field was taken up (`readRecord_field`), and if every field goes
through, so does the record (`readRecord_goes`).

A record takes each of its keys up once only. A part that means a value in which no map repeats a key
(`Node.Clean`) has every key at most once that is a text whatever the place it stands in
(`named_apart`). Keys such as `10` and `'10'` are two keys of such a value, and one of a record.
-/

namespace NetplanEditor.Yaml

/-- The reader makes something of the part. -/
def Accepts {α : Type} (read : Node → Except Fault α) (node : Node) : Prop :=
  ∃ value, read node = .ok value

namespace Node

/-- The part is a list, and the item is in it. -/
def HasItem (node item : Node) : Prop := ∃ items, node.items = .ok items ∧ item ∈ items

/-- The part is a map, and the value stands in it under the key. -/
def HasField (node : Node) (key : String) (value : Node) : Prop :=
  ∃ entries, node.entries = .ok entries ∧ (key, value) ∈ named entries

/-- The part is a scalar, whatever it would mean on its own. -/
def IsText (node : Node) : Prop := Accepts Node.text node

/-- The part is null or of the shape. -/
def IsOptional (Shape : Node → Prop) (node : Node) : Prop := node.tree = .ok .null ∨ Shape node

/-- The part is a list of parts of the shape. -/
def IsList (Shape : Node → Prop) (node : Node) : Prop :=
  ∃ items, node.items = .ok items ∧ ∀ item ∈ items, Shape item

/-- The part is a map from texts to parts of the shape that belongs to the key. -/
def IsRecord (Shape : String → Node → Prop) (node : Node) : Prop :=
  ∃ entries, node.entries = .ok entries ∧
    ∀ entry ∈ entries, ∃ key, entry.1.text = .ok key ∧ Shape key entry.2

instance {α : Type} (read : Node → Except Fault α) : DecidablePred (Accepts read) := fun node =>
  match reads : read node with
  | .ok value => isTrue ⟨value, reads⟩
  | .error _ => isFalse fun ⟨_, ok⟩ => nomatch reads.symm.trans ok

instance : DecidablePred IsText := inferInstanceAs (DecidablePred (Accepts Node.text))

instance (node : Node) : Decidable (node.tree = .ok .null) :=
  match node.tree with
  | .ok .null => isTrue rfl
  | .ok (.bool _) | .ok (.int _) | .ok (.float _) | .ok (.text _) | .ok (.seq _) | .ok (.map _)
  | .error _ => isFalse fun same => nomatch same

instance (Shape : Node → Prop) [DecidablePred Shape] : DecidablePred (IsOptional Shape) :=
  fun _ => inferInstanceAs (Decidable (_ ∨ _))

instance (Shape : Node → Prop) [DecidablePred Shape] : DecidablePred (IsList Shape) := fun node =>
  match isList : node.items with
  | .ok items =>
    decidable_of_iff (∀ item ∈ items, Shape item)
      ⟨fun each => ⟨items, isList, each⟩,
        fun ⟨_, same, each⟩ => Except.ok.inj (isList.symm.trans same) ▸ each⟩
  | .error _ => isFalse fun ⟨_, same, _⟩ => nomatch isList.symm.trans same

section

variable (Shape : String → Node → Prop) [∀ key, DecidablePred (Shape key)]

instance (entry : Node × Node) : Decidable (∃ key, entry.1.text = .ok key ∧ Shape key entry.2) :=
  match entry.1.text with
  | .ok key =>
    decidable_of_iff (Shape key entry.2)
      ⟨fun shape => ⟨key, rfl, shape⟩, fun ⟨_, same, shape⟩ => Except.ok.inj same ▸ shape⟩
  | .error _ => isFalse fun ⟨_, same, _⟩ => nomatch same

instance : DecidablePred (IsRecord Shape) := fun node =>
  match isMap : node.entries with
  | .ok entries =>
    decidable_of_iff (∀ entry ∈ entries, ∃ key, entry.1.text = .ok key ∧ Shape key entry.2)
      ⟨fun each => ⟨entries, isMap, each⟩,
        fun ⟨_, same, each⟩ => Except.ok.inj (isMap.symm.trans same) ▸ each⟩
  | .error _ => isFalse fun ⟨_, same, _⟩ => nomatch isMap.symm.trans same

end

/-- The part has no tags, and means a value without repeated keys. -/
def Clean (node : Node) : Prop := ∃ tree, node.Denotes tree ∧ tree.keysDistinct = true

/-- The two fields do not share a key that is a text on its own. -/
def Apart (a b : String × Node) : Prop := Plain.meaning b.1.toList = .text → a.1 ≠ b.1

instance : Std.Symm Apart where
  symm _ _ apart word same := apart (same ▸ word) same.symm

variable {node item value : Node} {key : String}

/-! ## Fields -/

theorem mem_named {entries : List (Node × Node)} :
    (key, value) ∈ named entries ↔ ∃ entry ∈ entries, entry.1.text = .ok key ∧ entry.2 = value := by
  rw [named, List.mem_filterMap]
  refine exists_congr fun entry => and_congr_right fun _ => ?_
  cases entry.1.text <;> simp [Except.toOption]

theorem IsRecord.field {Shape : String → Node → Prop} (record : node.IsRecord Shape)
    (field : node.HasField key value) : Shape key value := by
  obtain ⟨entries, isMap, each⟩ := record
  obtain ⟨_, same, member⟩ := field
  cases isMap.symm.trans same
  obtain ⟨entry, there, isText, rfl⟩ := mem_named.mp member
  obtain ⟨_, isText', shaped⟩ := each entry there
  cases isText.symm.trans isText'
  exact shaped

/-- Null is no list with an item. -/
theorem not_hasItem_of_null (isNull : node.tree = .ok .null) : ¬ node.HasItem item := by
  rintro ⟨items, isList, member⟩
  rcases items_eq_ok isList with rfl | ⟨tag, rfl⟩
  · cases member
  · obtain ⟨_, _, same⟩ := tree_seq isNull
    cases same

/-- Null is no map with a field. -/
theorem not_hasField_of_null (isNull : node.tree = .ok .null) : ¬ node.HasField key value := by
  rintro ⟨entries, isMap, member⟩
  rcases entries_eq_ok isMap with rfl | ⟨tag, rfl⟩
  · cases member
  · obtain ⟨_, _, same⟩ := tree_map isNull
    cases same

/-- There is a last field with the key if there is any. -/
theorem field?_isSome : (node.field? key).isSome ↔ ∃ value, node.HasField key value := by
  unfold field? HasField
  cases node.entries with
  | error fault => simp
  | ok entries =>
      rw [← Option.ne_none_iff_isSome, ne_eq, Named.last?_eq_none, not_not, Named.names, List.mem_map]
      simp

theorem hasField_of_field? (found : node.field? key = some value) : node.HasField key value := by
  unfold field? at found
  split at found
  next entries isMap => exact ⟨entries, isMap, Named.mem_of_last? found⟩
  next => cases found

/-! ## Clean parts -/

theorem clean_items {items : List Node} {trees : List Tree}
    (each : List.Forall₂ Denotes items trees) (distinct : Tree.itemsDistinct trees = true) :
    ∀ item ∈ items, item.Clean := by
  induction each with
  | nil => exact fun _ member => (List.not_mem_nil member).elim
  | cons means _ ih =>
      simp only [Tree.itemsDistinct, Bool.and_eq_true] at distinct
      exact List.forall_mem_cons.mpr ⟨⟨_, means, distinct.1⟩, ih distinct.2⟩

theorem clean_entries {entries : List (Node × Node)} {pairs : List (Tree × Tree)}
    (each : List.Forall₂ DenotesEntry entries pairs) (distinct : Tree.entriesDistinct pairs = true) :
    ∀ entry ∈ entries, entry.2.Clean := by
  induction each with
  | nil => exact fun _ member => (List.not_mem_nil member).elim
  | @cons entry pair entries pairs means _ ih =>
      rcases pair with ⟨key, value⟩
      simp only [Tree.entriesDistinct, Tree.entryDistinct, Bool.and_eq_true] at distinct
      exact List.forall_mem_cons.mpr ⟨⟨value, means.2, distinct.1.1.2⟩, ih distinct.2⟩

/-- A key that is a text on its own is the key of a clean map at most once, so no field before one
with that key has it too. -/
theorem named_apart {entries : List (Node × Node)} {pairs : List (Tree × Tree)}
    (each : List.Forall₂ DenotesEntry entries pairs) (distinct : Tree.entriesDistinct pairs = true) :
    (named entries).Pairwise Apart := by
  induction each with
  | nil => exact .nil
  | @cons entry pair entries pairs means each ih =>
      rcases entry with ⟨key, value⟩
      simp only [Tree.entriesDistinct, Bool.and_eq_true] at distinct
      cases isText : key.text with
      | error fault =>
          have skips : named ((key, value) :: entries) = named entries := by
            rw [named, List.filterMap_cons, isText]
            rfl
          rw [skips]
          exact ih distinct.2
      | ok name =>
          rw [named_cons isText]
          refine .cons ?_ (ih distinct.2)
          rintro ⟨other, part⟩ member word rfl
          obtain ⟨entry, there, isText', _⟩ := mem_named.mp member
          obtain ⟨pair', inPairs, means'⟩ := related_of_mem each there
          have repeated : Tree.hasKey pair.1 pairs = true := by
            rw [means.1.eq_text isText word, Tree.hasKey, List.any_eq_true]
            refine ⟨pair', inPairs, ?_⟩
            rw [means'.1.eq_text isText' word, Tree.same, beq_self_eq_true]
          rw [repeated] at distinct
          exact absurd distinct.1.2 (by decide)

namespace Clean

theorem untagged (clean : node.Clean) : node.untagged = true := by
  obtain ⟨_, means, _⟩ := clean
  exact means.untagged

theorem accepts_tree (clean : node.Clean) : Accepts Node.tree node := by
  obtain ⟨tree, means, _⟩ := clean
  exact ⟨tree, means.tree⟩

theorem of_item (clean : node.Clean) (member : node.HasItem item) : item.Clean := by
  obtain ⟨tree, means, distinct⟩ := clean
  obtain ⟨items, isList, member⟩ := member
  rcases items_eq_ok isList with rfl | ⟨tag, rfl⟩
  · cases member
  · rcases means.shape with ⟨_, _, same, _⟩ | ⟨others, trees, same, rfl, parts⟩ | ⟨_, _, same, _⟩ <;>
      cases same
    exact clean_items parts (by simpa only [Tree.keysDistinct] using distinct) _ member

/-- The entries of a clean map mean entries without repeated keys. -/
theorem entries (clean : node.Clean) {entries : List (Node × Node)}
    (isMap : node.entries = .ok entries) :
    ∃ pairs, List.Forall₂ DenotesEntry entries pairs ∧ Tree.entriesDistinct pairs = true := by
  obtain ⟨tree, means, distinct⟩ := clean
  rcases entries_eq_ok isMap with rfl | ⟨tag, rfl⟩
  · exact ⟨[], .nil, rfl⟩
  · rcases means.shape with ⟨_, _, same, _⟩ | ⟨_, _, same, _⟩ | ⟨_, pairs, same, rfl, parts⟩ <;>
      cases same
    exact ⟨pairs, parts, by simpa only [Tree.keysDistinct] using distinct⟩

theorem of_field (clean : node.Clean) (field : node.HasField key value) : value.Clean := by
  obtain ⟨entries, isMap, member⟩ := field
  obtain ⟨pairs, each, distinct⟩ := clean.entries isMap
  obtain ⟨entry, there, _, rfl⟩ := mem_named.mp member
  exact clean_entries each distinct entry there

/-- A key that is a text on its own has one value. -/
theorem field?_eq (clean : node.Clean) (field : node.HasField key value)
    (word : Plain.meaning key.toList = .text) : node.field? key = some value := by
  obtain ⟨other, found⟩ := Option.isSome_iff_exists.mp (field?_isSome.mpr ⟨value, field⟩)
  obtain ⟨entries, isMap, member⟩ := field
  obtain ⟨pairs, each, distinct⟩ := clean.entries isMap
  rw [found]
  by_contra differs
  rw [field?_of_entries isMap] at found
  exact (named_apart each distinct).forall (Named.mem_of_last? found) member
    (fun same => differs (by rw [(Prod.mk.inj same).2])) word rfl

/-- It can be told of a clean part whether it counts as absent. -/
theorem isAbsent (clean : node.Clean) :
    ∃ absent, node.isAbsent = .ok absent ∧ (node.tree = .ok .null ↔ absent = true) := by
  obtain ⟨tree, means, _⟩ := clean
  have told : ∃ absent, node.isAbsent = .ok absent := by
    rcases means.shape with ⟨form, text, rfl, _⟩ | ⟨_, _, rfl, _, _⟩ | ⟨_, _, rfl, _, _⟩
    · rw [Node.isAbsent]
      split <;> exact ⟨_, rfl⟩
    · exact ⟨false, rfl⟩
    · exact ⟨false, rfl⟩
  obtain ⟨absent, told⟩ := told
  exact ⟨absent, told, tree_eq_null means.untagged told⟩

end Clean

/-! ## Readers -/

section Readers

variable {α : Type} {read : Node → Except Fault α} {Shape Other : Node → Prop}

theorem IsOptional.congr (same : Shape node ↔ Other node) :
    node.IsOptional Shape ↔ node.IsOptional Other :=
  or_congr_right same

theorem accepts_optional (clean : node.Clean) :
    Accepts (·.optional read) node ↔ node.IsOptional (Accepts read) := by
  obtain ⟨absent, told, isNull⟩ := clean.isAbsent
  have reads : node.optional read = if absent then .ok none else (read node).map some := by
    rw [Node.optional, told]
    cases absent <;> cases read node <;> rfl
  simp only [Accepts, IsOptional, isNull, reads]
  cases absent with
  | true => simp
  | false => cases read node <;> simp [Except.map]

theorem accepts_list : Accepts (·.list read) node ↔ node.IsList (Accepts read) := by
  constructor
  · rintro ⟨values, reads⟩
    obtain ⟨items, isList, each⟩ := list_eq_ok reads
    refine ⟨items, isList, fun item member => ?_⟩
    obtain ⟨value, _, reads⟩ := related_of_mem each member
    exact ⟨value, reads⟩
  · rintro ⟨items, isList, each⟩
    obtain ⟨values, mapped⟩ : ∃ values, items.mapM read = .ok values := by
      cases mapped : items.mapM read with
      | ok values => exact ⟨values, rfl⟩
      | error fault =>
          obtain ⟨before, item, after, rfl, _, fails⟩ := mapM_eq_error.mp mapped
          obtain ⟨value, reads⟩ := each item (List.mem_append_right _ List.mem_cons_self)
          cases reads.symm.trans fails
    exact ⟨values, by simp only [Node.list, isList, mapped, bind, Except.bind]⟩

end Readers

end Node

/-! ## Passing over -/

mutual

/-- What has a value can be passed over. -/
theorem Node.pass_of_tree (node : Node) {tree : Tree} (hasValue : node.tree = .ok tree) :
    node.pass = .ok () := by
  cases node with
  | scalar tag form text => rfl
  | seq tag items =>
      obtain ⟨trees, values, _⟩ := Node.tree_seq hasValue
      exact Node.pass_of_treeItems items values
  | map tag entries =>
      obtain ⟨pairs, values, _⟩ := Node.tree_map hasValue
      exact Node.pass_of_treeEntries entries values
  | broken fault => cases hasValue
  | refused fault => rfl
termination_by structural node

theorem Node.pass_of_treeItems (items : List Node) {trees : List Tree}
    (values : Node.treeItems items = .ok trees) : Node.passItems items = .ok () := by
  cases items with
  | nil => rfl
  | cons item items =>
      simp only [Node.treeItems] at values
      split at values
      · cases values
      next first =>
        obtain ⟨others, rest, _⟩ := map_eq_ok values
        simp only [Node.passItems, Node.pass_of_tree item first, Node.pass_of_treeItems items rest]
termination_by structural items

theorem Node.pass_of_treeEntries (entries : List (Node × Node)) {pairs : List (Tree × Tree)}
    (values : Node.treeEntries entries = .ok pairs) : Node.passEntries entries = .ok () := by
  cases entries with
  | nil => rfl
  | cons entry entries =>
      simp only [Node.treeEntries] at values
      split at values
      · cases values
      next first =>
        obtain ⟨others, rest, _⟩ := map_eq_ok values
        simp only [Node.passEntries, Node.pass_of_treeEntry entry first,
          Node.pass_of_treeEntries entries rest]
termination_by structural entries

theorem Node.pass_of_treeEntry (entry : Node × Node) {pair : Tree × Tree}
    (hasValue : Node.treeEntry entry = .ok pair) : Node.passEntry entry = .ok () := by
  rcases entry with ⟨key, value⟩
  simp only [Node.treeEntry] at hasValue
  split at hasValue
  · cases hasValue
  next first =>
    obtain ⟨inner, rest, _⟩ := map_eq_ok hasValue
    simp only [Node.passEntry, Node.pass_of_tree key first, Node.pass_of_tree value rest]
termination_by structural entry

end

theorem Node.Clean.pass {node : Node} (clean : node.Clean) : node.pass = .ok () := by
  obtain ⟨tree, hasValue⟩ := clean.accepts_tree
  exact node.pass_of_tree hasValue

/-! ## Records -/

section Records

variable {σ : Type} {step : σ → String → Node → Except Fault σ} {entries : List (Node × Node)}
  {state after : σ} {key : String} {value : Node}

/-- Of a record that was read every field was taken up. -/
theorem readRecord_field (reads : readRecord step state entries = .ok after)
    (member : (key, value) ∈ Node.named entries) :
    ∃ before, Accepts (step before key) value := by
  induction entries generalizing state with
  | nil => cases member
  | cons entry entries ih =>
      rcases entry with ⟨first, part⟩
      obtain ⟨name, isText, reads⟩ := bind_eq_ok reads
      obtain ⟨middle, one, reads⟩ := bind_eq_ok reads
      rw [Node.named_cons isText] at member
      rcases List.mem_cons.mp member with same | later
      · cases same
        exact ⟨state, middle, one⟩
      · exact ih reads later

/-- A record is read if its keys are texts and each of its fields goes through behind those before
it. -/
theorem readRecord_goes {P : σ → List (String × Node) → Prop}
    (texts : ∀ entry ∈ entries, entry.1.IsText) (start : P state [])
    (goes : ∀ {before done key value later}, Node.named entries = done ++ (key, value) :: later →
      P before done → ∃ after, step before key value = .ok after ∧ P after (done ++ [(key, value)])) :
    ∃ after, readRecord step state entries = .ok after ∧ P after (Node.named entries) := by
  have run : ∀ done, P state done →
      (∀ {before front key value later}, done ++ Node.named entries = front ++ (key, value) :: later →
        P before front →
        ∃ after, step before key value = .ok after ∧ P after (front ++ [(key, value)])) →
      ∃ after, readRecord step state entries = .ok after ∧ P after (done ++ Node.named entries) := by
    clear start goes
    induction entries generalizing state with
    | nil =>
        intro done holds _
        exact ⟨state, rfl, by rwa [Node.named, List.filterMap_nil, List.append_nil]⟩
    | cons entry entries ih =>
        intro done holds goes
        rcases entry with ⟨first, part⟩
        obtain ⟨⟨name, isText⟩, texts⟩ := List.forall_mem_cons.mp texts
        rw [Node.named_cons isText] at goes ⊢
        obtain ⟨middle, one, holds⟩ := goes rfl holds
        rw [List.append_cons] at goes ⊢
        obtain ⟨after, rest, holds⟩ := ih texts _ holds goes
        refine ⟨after, ?_, holds⟩
        simp only [readRecord, isText, one, rest, bind, Except.bind]
  exact run [] start fun {_ _ _ _ _} split holds => goes split holds

/-- A clean record of its shape is read if each of its fields goes through behind others, among which
its key has not come up if it is a text on its own. -/
theorem Node.Clean.readRecord {node : Node} {Shape : String → Node → Prop}
    {P : σ → List (String × Node) → Prop} (clean : node.Clean) (record : node.IsRecord Shape)
    (start : P state [])
    (goes : ∀ {before done key value}, P before done →
      (Plain.meaning key.toList = .text → ∀ field ∈ done, field.1 ≠ key) →
      node.HasField key value → Shape key value →
      ∃ after, step before key value = .ok after ∧ P after (done ++ [(key, value)])) :
    ∃ entries after, node.entries = .ok entries ∧ Yaml.readRecord step state entries = .ok after ∧
      P after (named entries) := by
  obtain ⟨entries, isMap, each⟩ := record
  obtain ⟨pairs, means, distinct⟩ := clean.entries isMap
  have apart := named_apart means distinct
  have texts : ∀ entry ∈ entries, entry.1.IsText := by
    intro entry member
    obtain ⟨key, isText, _⟩ := each entry member
    exact ⟨key, isText⟩
  obtain ⟨after, reads, holds⟩ := readRecord_goes (P := P) texts start
    fun {before done key value later} split holds => by
      have field : node.HasField key value :=
        ⟨entries, isMap, split ▸ List.mem_append_right _ List.mem_cons_self⟩
      rw [split, List.pairwise_append] at apart
      exact goes holds (fun word field member => apart.2.2 field member _ List.mem_cons_self word)
        field (IsRecord.field ⟨entries, isMap, each⟩ field)
  exact ⟨entries, after, isMap, reads, holds⟩

/-- A key that has not come up so far is taken up if its part is. -/
theorem Reads.once {α : Type} {read : Node → Except Fault α} {fields : List (String × Node)}
    {seen : Option α} (before : Reads read (Named.last? fields key) seen)
    (fresh : ∀ field ∈ fields, field.1 ≠ key) (accepts : Accepts read value) :
    Accepts (readOnce seen read) value := by
  have notYet : Named.last? fields key = none := by
    rw [Named.last?_eq_none, Named.names, List.mem_map]
    rintro ⟨field, member, same⟩
    exact fresh field member same
  rw [notYet] at before
  obtain ⟨result, reads⟩ := accepts
  rcases before.cases with ⟨_, rfl⟩ | ⟨_, _, some, _⟩
  · exact ⟨some result, by rw [readOnce, reads]; rfl⟩
  · cases some

/-- What is made of what is accepted is accepted. -/
theorem Accepts.map {α β : Type} {read : Node → Except Fault α} (accepts : Accepts read value)
    (f : α → β) : ∃ after, (read value).map f = .ok after := by
  obtain ⟨result, reads⟩ := accepts
  exact ⟨f result, by rw [reads]; rfl⟩

end Records

end NetplanEditor.Yaml
