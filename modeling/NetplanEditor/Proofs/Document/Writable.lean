import NetplanEditor.Document.Read

/-!
# Which documents have a text

The keys that a document writes itself are texts, and what it writes under them has a text whatever
it says. So a document has a text exactly if everything that it carries along has one
(`Document.render_isOk`): only there can a map have a map with one entry as its only key.
-/

namespace NetplanEditor

open Yaml (Tree)

/-- All the values can be written. -/
def AllWritable (fields : Named Tree) : Prop := ∀ field ∈ fields, field.2.isWritable = true

instance (fields : Named Tree) : Decidable (AllWritable fields) :=
  inferInstanceAs (Decidable (∀ field ∈ fields, field.2.isWritable = true))

/-! ## Maps under texts -/

/-- All the keys are texts. -/
def TextKeys (entries : List (Tree × Tree)) : Prop := ∀ entry ∈ entries, ∃ key, entry.1 = .text key

theorem TextKeys.nil : TextKeys [] := fun _ member => (List.not_mem_nil member).elim

theorem TextKeys.cons {key : String} {value : Tree} {entries : List (Tree × Tree)}
    (rest : TextKeys entries) : TextKeys ((.text key, value) :: entries) := by
  intro entry member
  rcases List.mem_cons.mp member with rfl | old
  · exact ⟨key, rfl⟩
  · exact rest entry old

theorem TextKeys.append {left right : List (Tree × Tree)} (first : TextKeys left)
    (rest : TextKeys right) : TextKeys (left ++ right) := by
  intro entry member
  exact (List.mem_append.mp member).elim (first entry) (rest entry)

theorem textKeys_optionalField {α : Type} (key : String) (write : α → Tree) (field : Option α) :
    TextKeys (optionalField key write field) := by
  cases field with
  | none => exact .nil
  | some value => exact .cons .nil

theorem textKeys_fieldsOf (fields : Named Tree) : TextKeys (fieldsOf fields) := by
  intro entry member
  obtain ⟨field, _, rfl⟩ := List.mem_map.mp member
  exact ⟨field.1, rfl⟩

/-- A map whose keys are texts can be written if its entries can. -/
theorem isWritable_map {entries : List (Tree × Tree)} (keys : TextKeys entries) :
    (Yaml.Tree.map entries).isWritable = Tree.entriesWritable entries := by
  cases entries with
  | nil => rfl
  | cons entry rest =>
      rcases entry with ⟨key, value⟩
      obtain ⟨text, rfl⟩ := keys _ List.mem_cons_self
      rfl

theorem entriesWritable_append (left right : List (Tree × Tree)) :
    Tree.entriesWritable (left ++ right) =
      (Tree.entriesWritable left && Tree.entriesWritable right) := by
  induction left with
  | nil => rfl
  | cons entry left ih => simp only [List.cons_append, Tree.entriesWritable, ih, Bool.and_assoc]

theorem entriesWritable_single (key : String) (value : Tree) :
    Tree.entriesWritable [(.text key, value)] = value.isWritable := by
  simp [Tree.entriesWritable, Tree.entryWritable, Tree.isWritable]

theorem entriesWritable_optionalField {α : Type} (key : String) (write : α → Tree)
    (field : Option α) (value : ∀ x, (write x).isWritable = true) :
    Tree.entriesWritable (optionalField key write field) = true := by
  cases field with
  | none => rfl
  | some x => exact (entriesWritable_single key (write x)).trans (value x)

theorem entriesWritable_fieldsOf (fields : Named Tree) :
    Tree.entriesWritable (fieldsOf fields) = true ↔ AllWritable fields := by
  induction fields with
  | nil => exact ⟨fun _ _ member => (List.not_mem_nil member).elim, fun _ => rfl⟩
  | cons field fields ih =>
      have unfolded : Tree.entriesWritable (fieldsOf (field :: fields)) =
          (field.2.isWritable && Tree.entriesWritable (fieldsOf fields)) := by
        simp [fieldsOf, Tree.entriesWritable, Tree.entryWritable, Tree.isWritable]
      rw [unfolded, Bool.and_eq_true, ih]
      simp only [AllWritable, List.forall_mem_cons]

/-! ## What a document writes -/

theorem itemsWritable_map {α : Type} {write : α → Tree} (value : ∀ x, (write x).isWritable = true)
    (xs : List α) : Tree.itemsWritable (xs.map write) = true := by
  induction xs with
  | nil => rfl
  | cons x xs ih => simp [Tree.itemsWritable, value x, ih]

theorem Route.isWritable_toTree (route : Route) : route.toTree.isWritable = true := by
  rw [Route.toTree, isWritable_map
    ((TextKeys.cons (TextKeys.cons .nil)).append (textKeys_optionalField _ _ _)),
    entriesWritable_append,
    entriesWritable_optionalField "metric" _ route.metric (fun metric => rfl)]
  rfl

/-- An entry can be written if what it carries along can. -/
theorem Entry.isWritable_toTree (entry : Entry) :
    entry.toTree.isWritable = true ↔ AllWritable entry.extra := by
  have addressKeys : TextKeys (if entry.addresses.isEmpty then []
      else [(.text "addresses", .seq (entry.addresses.map .text))]) := by
    split
    · exact .nil
    · exact .cons .nil
  have addresses : Tree.entriesWritable (if entry.addresses.isEmpty then []
      else [(.text "addresses", .seq (entry.addresses.map .text))]) = true := by
    split
    · rfl
    · exact (entriesWritable_single _ _).trans (itemsWritable_map (fun _ => rfl) _)
  have routes : Tree.entriesWritable (optionalField "routes"
      (fun routes => .seq (routes.map Route.toTree)) entry.routes) = true :=
    entriesWritable_optionalField "routes" _ entry.routes fun routes =>
      itemsWritable_map Route.isWritable_toTree routes
  rw [Entry.toTree, isWritable_map (((((((addressKeys.append (textKeys_optionalField _ _ _)).append
    (textKeys_optionalField _ _ _)).append (textKeys_optionalField _ _ _)).append
    (textKeys_optionalField _ _ _)).append (textKeys_optionalField _ _ _)).append
    (textKeys_fieldsOf _)))]
  simp only [entriesWritable_append, Bool.and_eq_true, entriesWritable_fieldsOf, addresses, routes,
    entriesWritable_optionalField "gateway4" .text entry.gateway4 (fun _ => rfl),
    entriesWritable_optionalField "gateway6" .text entry.gateway6 (fun _ => rfl),
    entriesWritable_optionalField "dhcp4" .bool entry.dhcp4 (fun _ => rfl),
    entriesWritable_optionalField "dhcp6" .bool entry.dhcp6 (fun _ => rfl), true_and]

namespace Document

/-- A document can be written if everything that it carries along can. -/
theorem isWritable_toTree (document : Document) :
    document.toTree.isWritable = true ↔
      AllWritable document.entry.extra ∧ AllWritable document.sections := by
  have entry : (Yaml.Tree.map [(.text document.interface, document.entry.toTree)]).isWritable =
      document.entry.toTree.isWritable :=
    (isWritable_map (.cons .nil)).trans (entriesWritable_single _ _)
  rw [toTree, isWritable_map (.cons .nil), entriesWritable_single, networkTree, isWritable_map
    (((TextKeys.cons (textKeys_optionalField _ _ _)).append (.cons .nil)).append
      (textKeys_fieldsOf _)), ← List.singleton_append]
  simp only [entriesWritable_append, entriesWritable_single, Bool.and_eq_true,
    entriesWritable_fieldsOf, entry, Entry.isWritable_toTree,
    entriesWritable_optionalField "renderer" .text document.renderer (fun _ => rfl)]
  simp [Tree.isWritable]

/-- A document has a text exactly if everything that it carries along can be written. -/
theorem render_isOk (document : Document) :
    (∃ text, document.render = .ok text) ↔
      AllWritable document.entry.extra ∧ AllWritable document.sections := by
  rw [← isWritable_toTree]
  unfold render render? Tree.render?
  cases writable : document.toTree.isWritable with
  | true => simp
  | false => simp

end Document

end NetplanEditor
