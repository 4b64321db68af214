import NetplanEditor.Proofs.Lookup
import NetplanEditor.Proofs.Result
import NetplanEditor.Proofs.Yaml.Denotation

/-!
# The fields of a record that was read

A record is read field by field, and what it has taken up in the end is told by the parts under its
names (`Node.field?`). `readRecord_run` goes along the fields, and `Reads` says of one of them that
what was taken up is what its part was read as. Keys count by their texts here: of several fields
with one name it is the last that is meant.
-/

namespace NetplanEditor.Yaml

namespace Node

/-- The fields of a record by their names. -/
def named (entries : List (Node × Node)) : List (String × Node) :=
  entries.filterMap fun entry => entry.1.text.toOption.map (·, entry.2)

/-- The part under the name, if the whole is a map that has the name. -/
def field? (node : Node) (name : String) : Option Node :=
  match node.entries with
  | .ok entries => Named.last? (named entries) name
  | .error _ => none

variable {node part : Node} {name : String}

theorem named_cons {key value : Node} {entries : List (Node × Node)} (isText : key.text = .ok name) :
    named ((key, value) :: entries) = (name, value) :: named entries := by
  rw [named, List.filterMap_cons, isText]
  rfl

theorem field?_of_entries {entries : List (Node × Node)} (isMap : node.entries = .ok entries) :
    node.field? = Named.last? (named entries) := by
  funext name
  rw [field?, isMap]

/-! ## Parts without tags -/

theorem untagged_of_mem_entries {entries : List (Node × Node)} {entry : Node × Node}
    (free : untaggedEntries entries = true) (member : entry ∈ entries) :
    entry.2.untagged = true := by
  induction entries with
  | nil => cases member
  | cons head entries ih =>
      rcases head with ⟨key, value⟩
      simp only [untaggedEntries, untaggedEntry, Bool.and_eq_true] at free
      rcases List.mem_cons.mp member with rfl | later
      · exact free.1.2
      · exact ih free.2 later

/-- What has entries is a map, or stands for an empty one. -/
theorem entries_eq_ok {entries : List (Node × Node)} (isMap : node.entries = .ok entries) :
    entries = [] ∨ ∃ tag, node = .map tag entries := by
  unfold Node.entries at isMap
  split at isMap
  next tag others =>
    cases isMap
    exact Or.inr ⟨tag, rfl⟩
  next =>
    split at isMap
    · cases isMap
      exact Or.inl rfl
    · cases node <;> cases isMap

/-- What has items is a list, or stands for an empty one. -/
theorem items_eq_ok {items : List Node} (isList : node.items = .ok items) :
    items = [] ∨ ∃ tag, node = .seq tag items := by
  unfold Node.items at isList
  split at isList
  next tag others =>
    cases isList
    exact Or.inr ⟨tag, rfl⟩
  next =>
    split at isList
    · cases isList
      exact Or.inl rfl
    · cases node <;> cases isList

/-- The value of a list is the list of the values of its items. -/
theorem tree_seq {tag : Option String} {items : List Node} {tree : Tree}
    (hasValue : (Node.seq tag items).tree = .ok tree) :
    ∃ trees, treeItems items = .ok trees ∧ tree = .seq trees := by
  simp only [Node.tree] at hasValue
  split at hasValue
  · cases hasValue
  · obtain ⟨trees, values, rfl⟩ := map_eq_ok hasValue
    exact ⟨trees, values, rfl⟩

/-- The value of a map is the map of the values of its entries. -/
theorem tree_map {tag : Option String} {entries : List (Node × Node)} {tree : Tree}
    (hasValue : (Node.map tag entries).tree = .ok tree) :
    ∃ pairs, treeEntries entries = .ok pairs ∧ tree = .map pairs := by
  simp only [Node.tree] at hasValue
  split at hasValue
  · cases hasValue
  · obtain ⟨pairs, values, rfl⟩ := map_eq_ok hasValue
    exact ⟨pairs, values, rfl⟩

theorem untagged_entries {entries : List (Node × Node)} (untagged : node.untagged = true)
    (isMap : node.entries = .ok entries) : untaggedEntries entries = true := by
  rcases entries_eq_ok isMap with rfl | ⟨tag, rfl⟩
  · rfl
  · exact (Bool.and_eq_true_iff.mp untagged).2

theorem untagged_items {items : List Node} (untagged : node.untagged = true)
    (isList : node.items = .ok items) : untaggedItems items = true := by
  rcases items_eq_ok isList with rfl | ⟨tag, rfl⟩
  · rfl
  · exact (Bool.and_eq_true_iff.mp untagged).2

theorem untagged_of_named {entries : List (Node × Node)} (free : untaggedEntries entries = true)
    (found : Named.last? (named entries) name = some part) : part.untagged = true := by
  obtain ⟨entry, member, same⟩ := List.mem_filterMap.mp (Named.mem_of_last? found)
  obtain ⟨key, _, same⟩ := Option.map_eq_some_iff.mp same
  cases same
  exact untagged_of_mem_entries free member

/-- The parts of what has no tags have none. -/
theorem untagged_of_field? (untagged : node.untagged = true) (found : node.field? name = some part) :
    part.untagged = true := by
  unfold field? at found
  split at found
  next isMap => exact untagged_of_named (untagged_entries untagged isMap) found
  next => cases found

/-! ## Absent parts -/

/-- No numeral means null. -/
theorem numeral_meaning_ne_null (numeral : Plain.Numeral) : numeral.meaning? ≠ some .null := by
  unfold Plain.Numeral.meaning?
  split
  · split
    · simp
    · split <;> simp
  · split
    · simp
    · split <;> simp

/-- The scalars that mean null are the spellings of it. -/
theorem meaning_eq_null {cs : List Char} : Plain.meaning cs = .null ↔ Plain.isNull cs = true := by
  unfold Plain.meaning
  cases null : Plain.isNull cs with
  | true => simp
  | false =>
      simp only [Bool.false_eq_true, if_false, iff_false]
      split
      · simp
      · split
        next meaning isNumeral =>
          rintro rfl
          obtain ⟨numeral, _, means⟩ := Option.bind_eq_some_iff.mp isNumeral
          exact numeral_meaning_ne_null numeral means
        next =>
          split
          · simp
          · split <;> simp

theorem ofMeaning_eq_null {text : String} {meaning : Meaning} :
    ofMeaning text meaning = .ok .null ↔ meaning = .null := by
  cases meaning <;> simp [ofMeaning]

theorem ofMeaning_eq_int {text : String} {meaning : Meaning} {i : Int} :
    ofMeaning text meaning = .ok (.int i) ↔ meaning = .int i := by
  cases meaning <;> simp [ofMeaning]

/-- Without a tag, a part counts as absent if it means null. -/
theorem tree_eq_null (untagged : node.untagged = true) {absent : Bool}
    (reads : node.isAbsent = .ok absent) : node.tree = .ok .null ↔ absent = true := by
  cases node with
  | scalar tag form text =>
      rw [Node.untagged, Option.isNone_iff_eq_none] at untagged
      subst untagged
      rw [Node.tree, scalarTree_none]
      by_cases plain : form = .plain
      · subst plain
        simp only [Node.isAbsent, ne_eq, not_true_eq_false, if_false, Except.ok.injEq] at reads
        rw [if_pos rfl, ofMeaning_eq_null, meaning_eq_null, reads]
      · simp only [Node.isAbsent, ne_eq, plain, not_false_eq_true, if_true,
          Except.ok.injEq] at reads
        simp [← reads, plain]
  | seq tag items =>
      cases reads
      refine iff_of_false (fun null => ?_) Bool.false_ne_true
      obtain ⟨_, _, same⟩ := tree_seq null
      cases same
  | map tag entries =>
      cases reads
      refine iff_of_false (fun null => ?_) Bool.false_ne_true
      obtain ⟨_, _, same⟩ := tree_map null
      cases same
  | broken fault => cases reads
  | refused fault => cases reads

/-- What counts as absent has no fields. -/
theorem field?_of_isAbsent (absent : node.isAbsent = .ok true) : node.field? name = none := by
  cases node with
  | scalar tag form text =>
      have entries : (Node.scalar tag form text).entries =
          if (Node.scalar tag form text).isVoid then .ok [] else .error (.wrongKind "a map") := rfl
      rw [field?, entries]
      cases (Node.scalar tag form text).isVoid <;> rfl
  | seq tag items => cases absent
  | map tag entries => cases absent
  | broken fault => cases absent
  | refused fault => cases absent

variable {α : Type} {read : Node → Except Fault α}

/-- An optional part that was read is absent, or there is what it was read as. -/
theorem optional_eq_ok {result : Option α} (reads : node.optional read = .ok result) :
    node.isAbsent = .ok true ∧ result = none ∨
      ∃ value, node.isAbsent = .ok false ∧ read node = .ok value ∧ result = some value := by
  obtain ⟨absent, isAbsent, reads⟩ := bind_eq_ok reads
  cases absent with
  | true =>
      cases reads
      exact Or.inl ⟨isAbsent, rfl⟩
  | false =>
      obtain ⟨value, readsPart, same⟩ := bind_eq_ok reads
      cases same
      exact Or.inr ⟨value, isAbsent, readsPart, rfl⟩

/-- A list was read item by item. -/
theorem list_eq_ok {values : List α} (reads : node.list read = .ok values) :
    ∃ items, node.items = .ok items ∧
      List.Forall₂ (fun item value => read item = .ok value) items values := by
  obtain ⟨items, isList, mapped⟩ := bind_eq_ok reads
  exact ⟨items, isList, mapM_eq_ok.mp mapped⟩

end Node

/-! ## Records -/

/-- What holds at the start, and at each step of the fields so far, holds in the end of all of
them. -/
theorem readRecord_run {σ : Type} {step : σ → String → Node → Except Fault σ}
    {P : σ → List (String × Node) → Prop}
    (keeps : ∀ {state fields key value after}, P state fields →
      step state key value = .ok after → P after (fields ++ [(key, value)]))
    {entries : List (Node × Node)} {state after : σ} (start : P state [])
    (reads : readRecord step state entries = .ok after) : P after (Node.named entries) := by
  have run : ∀ done, P state done → P after (done ++ Node.named entries) := by
    clear start
    induction entries generalizing state with
    | nil =>
        intro done taken
        cases reads
        rwa [Node.named, List.filterMap_nil, List.append_nil]
    | cons entry entries ih =>
        intro done taken
        rcases entry with ⟨key, value⟩
        obtain ⟨name, isText, reads⟩ := bind_eq_ok reads
        obtain ⟨middle, one, reads⟩ := bind_eq_ok reads
        rw [Node.named_cons isText, List.append_cons]
        exact ih reads _ (keeps taken one)
  exact run [] start

theorem readOnce_eq_ok {α : Type} {seen after : Option α} {read : Node → Except Fault α}
    {node : Node} (once : readOnce seen read node = .ok after) :
    ∃ value, read node = .ok value ∧ after = some value := by
  unfold readOnce at once
  split at once
  · cases once
  · obtain ⟨value, reads, rfl⟩ := map_eq_ok once
    exact ⟨value, reads, rfl⟩

theorem require_eq_ok {α : Type} {key : String} {seen : Option α} {value : α}
    (ok : require key seen = .ok value) : seen = some value := by
  unfold require at ok
  split at ok
  · cases ok
    rfl
  · cases ok

/-- What was taken up under the name is what the part under it was read as, if there is one. -/
def Reads {α : Type} (read : Node → Except Fault α) (given : Option Node) (taken : Option α) :
    Prop :=
  given.map read = taken.map .ok

namespace Reads

variable {α : Type} {read : Node → Except Fault α} {given : Option Node} {taken : Option α}
  {fields : List (String × Node)} {key name : String} {value : Node}

theorem cases (reads : Reads read given taken) :
    given = none ∧ taken = none ∨
      ∃ node value, given = some node ∧ read node = .ok value ∧ taken = some value := by
  cases given with
  | none =>
      cases taken with
      | none => exact Or.inl ⟨rfl, rfl⟩
      | some value => cases reads
  | some node =>
      cases taken with
      | none => cases reads
      | some value => exact Or.inr ⟨node, value, rfl, Option.some.inj reads, rfl⟩

/-- What is given was taken up. -/
theorem exists_taken (reads : Reads read given taken) (isGiven : given ≠ none) :
    ∃ value, taken = some value := by
  rcases reads.cases with ⟨none, _⟩ | ⟨_, value, _, _, some⟩
  · exact (isGiven none).elim
  · exact ⟨value, some⟩

/-- The field that comes in is the one under its name. -/
theorem own {result : α} (reads : read value = .ok result) :
    Reads read (Named.last? (fields ++ [(key, value)]) key) (some result) := by
  simp [Reads, reads]

/-- The field that comes in leaves those under other names. -/
theorem other (before : Reads read (Named.last? fields name) taken) (differs : name ≠ key) :
    Reads read (Named.last? (fields ++ [(key, value)]) name) taken := by
  rwa [Named.last?_concat, if_neg differs]

end Reads

end NetplanEditor.Yaml
