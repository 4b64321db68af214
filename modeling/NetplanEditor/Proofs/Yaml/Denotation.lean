import Mathlib.Data.List.Forall2
import NetplanEditor.Yaml.Layout
import NetplanEditor.Yaml.Read

/-!
# What the parts of a document denote

Every place in a document reads its part in its own way: as a text, as a flag, as a list, as a value
that is only carried along. `Node.Denotes` says what a part without tags means on its own, and the
lemmas below say what each reader makes of a part that means a given value. So a reader never has to
be followed back to the text.

`Takes` is the same for records: what a record has taken up after a run of fields, whatever the
parts are that denote them. It composes along the fields (`Takes.append`), one field at a time.
-/

namespace NetplanEditor.Yaml

namespace Node

mutual

/-- No tag stands in the part. -/
def untagged : Node → Bool
  | .scalar tag _ _ => tag.isNone
  | .seq tag items => tag.isNone && untaggedItems items
  | .map tag entries => tag.isNone && untaggedEntries entries
  | .broken _ | .refused _ => true
termination_by structural node => node

/-- No tag stands in the items. -/
def untaggedItems : List Node → Bool
  | [] => true
  | item :: items => untagged item && untaggedItems items
termination_by structural items => items

/-- No tag stands in the entries. -/
def untaggedEntries : List (Node × Node) → Bool
  | [] => true
  | entry :: entries => untaggedEntry entry && untaggedEntries entries
termination_by structural entries => entries

/-- No tag stands in the entry. -/
def untaggedEntry : Node × Node → Bool
  | (key, value) => untagged key && untagged value
termination_by structural entry => entry

end

/-- The part has no tags and means the value. -/
structure Denotes (node : Node) (tree : Tree) : Prop where
  untagged : node.untagged = true
  tree : node.tree = .ok tree

/-- The entry's key and value mean those of a pair. -/
def DenotesEntry (entry : Node × Node) (pair : Tree × Tree) : Prop :=
  entry.1.Denotes pair.1 ∧ entry.2.Denotes pair.2

variable {node : Node}

/-! ## Taking a part to pieces -/

theorem denotes_items {items : List Node} {trees : List Tree}
    (free : untaggedItems items = true) (values : treeItems items = .ok trees) :
    List.Forall₂ Denotes items trees := by
  induction items generalizing trees with
  | nil =>
      simp only [treeItems, Except.ok.injEq] at values
      subst values
      exact .nil
  | cons item items ih =>
      simp only [untaggedItems, Bool.and_eq_true] at free
      simp only [treeItems] at values
      split at values
      · cases values
      next value itemValue =>
        cases rest : treeItems items with
        | error fault => simp [rest, Except.map] at values
        | ok others =>
            simp only [rest, Except.map, Except.ok.injEq] at values
            subst values
            exact .cons ⟨free.1, itemValue⟩ (ih free.2 rest)

theorem denotes_entry {entry : Node × Node} {pair : Tree × Tree}
    (free : untaggedEntry entry = true) (value : treeEntry entry = .ok pair) :
    DenotesEntry entry pair := by
  rcases entry with ⟨key, inner⟩
  simp only [untaggedEntry, Bool.and_eq_true] at free
  simp only [treeEntry] at value
  split at value
  · cases value
  next keyTree keyValue =>
    cases innerValue : inner.tree with
    | error fault => simp [innerValue, Except.map] at value
    | ok innerTree =>
        simp only [innerValue, Except.map, Except.ok.injEq] at value
        subst value
        exact ⟨⟨free.1, keyValue⟩, ⟨free.2, innerValue⟩⟩

theorem denotes_entries {entries : List (Node × Node)} {pairs : List (Tree × Tree)}
    (free : untaggedEntries entries = true) (values : treeEntries entries = .ok pairs) :
    List.Forall₂ DenotesEntry entries pairs := by
  induction entries generalizing pairs with
  | nil =>
      simp only [treeEntries, Except.ok.injEq] at values
      subst values
      exact .nil
  | cons entry entries ih =>
      simp only [untaggedEntries, Bool.and_eq_true] at free
      simp only [treeEntries] at values
      split at values
      · cases values
      next pair entryValue =>
        cases rest : treeEntries entries with
        | error fault => simp [rest, Except.map] at values
        | ok others =>
            simp only [rest, Except.map, Except.ok.injEq] at values
            subst values
            exact .cons (denotes_entry free.1 entryValue) (ih free.2 rest)

/-- A part without tags is a scalar, a list or a map, and its value is made of those of its parts. -/
theorem Denotes.shape {tree : Tree} (means : node.Denotes tree) :
    (∃ form text, node = .scalar none form text ∧ scalarTree none form text = .ok tree) ∨
      (∃ items trees, node = .seq none items ∧ tree = .seq trees ∧
        List.Forall₂ Denotes items trees) ∨
      ∃ entries pairs, node = .map none entries ∧ tree = .map pairs ∧
        List.Forall₂ DenotesEntry entries pairs := by
  obtain ⟨free, value⟩ := means
  cases node with
  | scalar tag form text =>
      rw [Node.untagged, Option.isNone_iff_eq_none] at free
      subst free
      exact Or.inl ⟨form, text, rfl, value⟩
  | seq tag items =>
      rw [Node.untagged, Bool.and_eq_true, Option.isNone_iff_eq_none] at free
      obtain ⟨rfl, free⟩ := free
      simp only [Node.tree, isLocalTag, Option.any_none, Bool.false_eq_true, if_false] at value
      cases values : treeItems items with
      | error fault => simp [values, Except.map] at value
      | ok trees =>
          simp only [values, Except.map, Except.ok.injEq] at value
          exact Or.inr (Or.inl ⟨items, trees, rfl, value.symm, denotes_items free values⟩)
  | map tag entries =>
      rw [Node.untagged, Bool.and_eq_true, Option.isNone_iff_eq_none] at free
      obtain ⟨rfl, free⟩ := free
      simp only [Node.tree, isLocalTag, Option.any_none, Bool.false_eq_true, if_false] at value
      cases values : treeEntries entries with
      | error fault => simp [values, Except.map] at value
      | ok pairs =>
          simp only [values, Except.map, Except.ok.injEq] at value
          exact Or.inr (Or.inr ⟨entries, pairs, rfl, value.symm, denotes_entries free values⟩)
  | broken fault => cases value
  | refused fault => cases value

/-- What a scalar without a tag means: a text unless it is plain. -/
theorem scalarTree_none (form : ScalarForm) (text : String) :
    scalarTree none form text =
      if form = .plain then ofMeaning text (Plain.meaning text.toList) else .ok (.text text) :=
  rfl

/-- No scalar means a list. -/
theorem ofMeaning_ne_seq {text : String} {meaning : Meaning} {trees : List Tree} :
    ofMeaning text meaning ≠ .ok (.seq trees) := by
  cases meaning <;> exact fun same => nomatch same

/-- No scalar means a map. -/
theorem ofMeaning_ne_map {text : String} {meaning : Meaning} {pairs : List (Tree × Tree)} :
    ofMeaning text meaning ≠ .ok (.map pairs) := by
  cases meaning <;> exact fun same => nomatch same

/-- A part that means a list is a list of parts that mean its items. -/
theorem Denotes.items {trees : List Tree} (means : node.Denotes (.seq trees)) :
    ∃ items, node.items = .ok items ∧ List.Forall₂ Denotes items trees := by
  rcases means.shape with ⟨form, text, rfl, value⟩ | ⟨items, others, rfl, same, parts⟩ |
    ⟨entries, pairs, rfl, same, parts⟩
  · rw [scalarTree_none] at value
    split at value
    · exact (ofMeaning_ne_seq value).elim
    · cases value
  · cases same
    exact ⟨items, rfl, parts⟩
  · cases same

/-- A part that means a map is a map of parts that mean its entries. -/
theorem Denotes.entries {pairs : List (Tree × Tree)} (means : node.Denotes (.map pairs)) :
    ∃ entries, node.entries = .ok entries ∧ List.Forall₂ DenotesEntry entries pairs := by
  rcases means.shape with ⟨form, text, rfl, value⟩ | ⟨items, others, rfl, same, parts⟩ |
    ⟨entries, pairs, rfl, same, parts⟩
  · rw [scalarTree_none] at value
    split at value
    · exact (ofMeaning_ne_map value).elim
    · cases value
  · cases same
  · cases same
    exact ⟨entries, rfl, parts⟩

/-! ## Scalars -/

/-- A part that means something other than null counts as present where a part is optional. -/
theorem Denotes.isAbsent {tree : Tree} (means : node.Denotes tree) (value : tree ≠ .null) :
    node.isAbsent = .ok false := by
  rcases means.shape with ⟨form, text, rfl, scalar⟩ | ⟨items, trees, rfl, _, _⟩ |
    ⟨entries, pairs, rfl, _, _⟩
  · rw [scalarTree_none] at scalar
    split at scalar
    next plain =>
      subst plain
      cases null : Plain.isNull text.toList with
      | true =>
          simp only [Plain.meaning, null, if_true, ofMeaning, Except.ok.injEq] at scalar
          exact (value scalar.symm).elim
      | false => simp [Node.isAbsent, null]
    next quoted => simp [Node.isAbsent, quoted]
  · rfl
  · rfl

/-- An optional part that means something other than null is read. -/
theorem Denotes.optional {α : Type} {read : Node → Except Fault α} {tree : Tree} {result : α}
    (means : node.Denotes tree) (value : tree ≠ .null) (reads : read node = .ok result) :
    node.optional read = .ok (some result) := by
  simp [Node.optional, means.isAbsent value, reads, bind, Except.bind, pure, Except.pure]

/-- Where a text is wanted, a part that means a text is read as that text. -/
theorem Denotes.text {text : String} (means : node.Denotes (.text text)) :
    node.text = .ok text := by
  rcases means.shape with ⟨form, written, rfl, scalar⟩ | ⟨items, trees, rfl, same, _⟩ |
    ⟨entries, pairs, rfl, same, _⟩
  · rw [scalarTree_none] at scalar
    split at scalar
    · generalize Plain.meaning written.toList = meaning at scalar
      cases meaning <;> cases scalar
      rfl
    · cases scalar
      rfl
  · cases same
  · cases same

/-- A part that is written with the text of a word means that word. -/
theorem Denotes.eq_text {tree : Tree} {word : String} (means : node.Denotes tree)
    (isText : node.text = .ok word) (isWord : Plain.meaning word.toList = .text) :
    tree = .text word := by
  rcases means.shape with ⟨form, text, rfl, scalar⟩ | ⟨_, _, rfl, _, _⟩ | ⟨_, _, rfl, _, _⟩
  · cases isText
    rw [scalarTree_none, isWord] at scalar
    split at scalar <;> exact (Except.ok.inj scalar).symm
  · cases isText
  · cases isText

/-- No spelling of null or of a boolean is a numeral. -/
theorem numeral?_of_word {cs : List Char} (word : Plain.isNull cs = true ∨ Plain.bool? cs ≠ none) :
    Plain.numeral? cs = none := by
  rcases word with null | bool
  · simp only [Plain.isNull, Plain.isNullWord, Bool.or_eq_true, List.isEmpty_iff, beq_iff_eq] at null
    rcases null with rfl | ((rfl | rfl) | rfl) | rfl <;> decide
  · simp only [Plain.bool?, Bool.or_eq_true, beq_iff_eq] at bool
    split at bool
    next spelled => rcases spelled with (rfl | rfl) | rfl <;> decide
    next =>
      split at bool
      next spelled => rcases spelled with (rfl | rfl) | rfl <;> decide
      next => exact (bool rfl).elim

/-- An integer is meant by its numerals, and by nothing else. -/
theorem meaning_eq_int {cs : List Char} {i : Int} :
    Plain.meaning cs = .int i ↔
      ∃ numeral, Plain.numeral? cs = some numeral ∧ numeral.meaning? = some (.int i) := by
  constructor
  · intro means
    unfold Plain.meaning at means
    split at means
    · cases means
    split at means
    · cases means
    split at means
    next meaning found =>
      subst means
      exact Option.bind_eq_some_iff.mp found
    next =>
      split at means
      · cases means
      · split at means <;> cases means
  · rintro ⟨numeral, written, value⟩
    have notNull : ¬ Plain.isNull cs = true := fun null => by
      cases written.symm.trans (numeral?_of_word (Or.inl null))
    have notBool : Plain.bool? cs = none := by
      by_contra bool
      cases written.symm.trans (numeral?_of_word (Or.inr bool))
    rw [Plain.meaning, if_neg notNull, notBool, written, Option.bind_some, value]

/-- A numeral is negative if it starts with a minus sign. -/
theorem negative_iff {cs : List Char} {numeral : Plain.Numeral}
    (written : Plain.numeral? cs = some numeral) :
    numeral.negative = true ↔ cs.head? = some '-' := by
  unfold Plain.numeral? at written
  split at written
  · cases written
  · split at written
    · obtain ⟨_, _, rfl⟩ := Option.map_eq_some_iff.mp written
      simp
    · obtain ⟨_, _, rfl⟩ := Option.map_eq_some_iff.mp written
      simp
    next minus _ =>
      obtain ⟨_, _, rfl⟩ := Option.map_eq_some_iff.mp written
      refine ⟨fun negative => absurd negative Bool.false_ne_true, fun first => ?_⟩
      obtain ⟨rest, same⟩ := List.head?_eq_some_iff.mp first
      exact (minus rest same).elim

/-- The unsigned integers are those that a plain scalar means without a minus sign. -/
theorem unsigned64?_eq_some {cs : List Char} {n : Nat} :
    Plain.unsigned64? cs = some n ↔ Plain.meaning cs = .int n ∧ cs.head? ≠ some '-' := by
  rw [meaning_eq_int]
  constructor
  · intro unsigned
    unfold Plain.unsigned64? at unsigned
    split at unsigned
    next magnitude written =>
      split at unsigned
      next fits =>
        cases unsigned
        refine ⟨⟨_, written, by simp [Plain.Numeral.meaning?, fits]⟩, fun minus => ?_⟩
        cases (negative_iff written).mpr minus
      next => cases unsigned
    next => cases unsigned
  · rintro ⟨⟨⟨negative, magnitude⟩, written, value⟩, noMinus⟩
    cases negative with
    | true => exact (noMinus ((negative_iff written).mp rfl)).elim
    | false =>
        simp only [Plain.Numeral.meaning?, Bool.false_eq_true, if_false] at value
        simp only [Plain.unsigned64?, written]
        split at value
        next fits =>
          simp only [Option.some.injEq, Meaning.int.injEq, Int.natCast_inj] at value
          subst value
          exact if_pos fits
        · split at value <;> cases value

/-- A positive integer has no minus sign. -/
theorem unsigned64?_of_meaning {cs : List Char} {n : Nat} (positive : 0 < n)
    (means : Plain.meaning cs = .int n) : Plain.unsigned64? cs = some n := by
  refine unsigned64?_eq_some.mpr ⟨means, fun minus => ?_⟩
  obtain ⟨⟨negative, magnitude⟩, written, value⟩ := meaning_eq_int.mp means
  obtain rfl : negative = true := (negative_iff written).mpr minus
  simp only [Plain.Numeral.meaning?, if_true] at value
  split at value
  · simp only [Option.some.injEq, Meaning.int.injEq] at value
    omega
  · split at value <;> cases value

/-- Where an unsigned integer of 32 bits is wanted, a part that means one is read as it. -/
theorem Denotes.unsigned32 {n : Nat} (means : node.Denotes (.int n)) (positive : 0 < n)
    (fits : n < UInt32.size) : node.unsigned32 = .ok (.ofNat n) := by
  rcases means.shape with ⟨form, written, rfl, scalar⟩ | ⟨items, trees, rfl, same, _⟩ |
    ⟨entries, pairs, rfl, same, _⟩
  · rw [scalarTree_none] at scalar
    split at scalar
    next plain =>
      subst plain
      generalize meaningOf : Plain.meaning written.toList = meaning at scalar
      cases meaning <;> cases scalar
      have unsigned := unsigned64?_of_meaning positive meaningOf
      simp only [Node.unsigned32, isNumeric, unsigned]
      exact if_pos fits
    · cases scalar
  · cases same
  · cases same

/-! ## Lists -/

/-- A list is read item by item. -/
theorem Denotes.list {α : Type} {read : Node → Except Fault α} {write : α → Tree} {xs : List α}
    (reads : ∀ x ∈ xs, ∀ item : Node, item.Denotes (write x) → read item = .ok x)
    (means : node.Denotes (.seq (xs.map write))) : node.list read = .ok xs := by
  obtain ⟨items, isList, parts⟩ := means.items
  have all : items.mapM read = .ok xs := by
    clear isList means
    induction xs generalizing items with
    | nil =>
        cases parts
        rfl
    | cons x xs ih =>
        cases parts with
        | cons head tail =>
            have first := reads x List.mem_cons_self _ head
            have rest := ih (fun y member => reads y (List.mem_cons_of_mem _ member)) _ tail
            simp [List.mapM_cons, first, rest, bind, Except.bind, pure, Except.pure]
  simp [Node.list, isList, all, bind, Except.bind]

end Node

/-! ## Records -/

/-- A record in the first state goes to the second over the fields, whatever the parts are that
denote them. -/
def Takes {σ : Type} (step : σ → String → Node → Except Fault σ) (state : σ)
    (fields : List (Tree × Tree)) (after : σ) : Prop :=
  ∀ entries, List.Forall₂ Node.DenotesEntry entries fields →
    readRecord step state entries = .ok after

/-- Reading a record goes through its entries in order. -/
theorem readRecord_append {σ : Type} {step : σ → String → Node → Except Fault σ} {state : σ}
    (entries behind : List (Node × Node)) :
    readRecord step state (entries ++ behind) =
      readRecord step state entries >>= fun middle => readRecord step middle behind := by
  induction entries generalizing state with
  | nil => rfl
  | cons entry entries ih =>
      rcases entry with ⟨key, value⟩
      simp only [List.cons_append, readRecord, ih, bind_assoc]

namespace Takes

variable {σ : Type} {step : σ → String → Node → Except Fault σ} {state middle after : σ}

theorem nil : Takes step state [] state := by
  intro entries parts
  cases parts
  rfl

/-- One field is taken up by one step. -/
theorem cons {key : String} {value : Tree} {fields : List (Tree × Tree)}
    (first : ∀ node : Node, node.Denotes value → step state key node = .ok middle)
    (rest : Takes step middle fields after) :
    Takes step state ((.text key, value) :: fields) after := by
  intro entries parts
  cases parts with
  | cons head tail =>
      rcases head with ⟨keyMeans, valueMeans⟩
      simp only [readRecord, keyMeans.text, first _ valueMeans, bind, Except.bind]
      exact rest _ tail

theorem single {key : String} {value : Tree}
    (first : ∀ node : Node, node.Denotes value → step state key node = .ok after) :
    Takes step state [(.text key, value)] after :=
  cons first nil

theorem append {left right : List (Tree × Tree)} (first : Takes step state left middle)
    (rest : Takes step middle right after) : Takes step state (left ++ right) after := by
  intro entries parts
  have leftParts := List.forall₂_take_append entries left right parts
  have rightParts := List.forall₂_drop_append entries left right parts
  rw [← List.take_append_drop left.length entries, readRecord_append, first _ leftParts]
  exact rest _ rightParts

end Takes

end NetplanEditor.Yaml
