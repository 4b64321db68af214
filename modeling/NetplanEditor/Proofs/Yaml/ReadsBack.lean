import NetplanEditor.Proofs.Yaml.Denotation

/-!
# Values that read back from their text

The text of a value reads back as a part without tags that means the value: `Tree.ReadsBack`. This
is a property of the data language alone, and what the documents rely on. It is checked by writing
the value and reading it (`Tree.ReadsBack.of_check`), for which values are compared exactly, as
opposed to `Tree.same`, which takes maps as unordered.
-/

namespace NetplanEditor.Yaml

/-- The text reads as a part without tags that means the value. -/
def Tree.IsMeantBy (tree : Tree) (text : String) : Prop :=
  ∃ node : Node, readText Except.ok text = .ok node ∧ node.Denotes tree

/-- The text of the value, if it has one, means the value. -/
def Tree.ReadsBack (tree : Tree) : Prop := ∀ text, tree.render? = some text → tree.IsMeantBy text

/-- A text that reads as a part is read in every other way as that part is. -/
theorem readText_of_ok {α : Type} {read : Node → Except Fault α} {text : String} {node : Node}
    (source : readText Except.ok text = .ok node) : readText read text = read node := by
  unfold readText at source ⊢
  simp only at source ⊢
  cases flaw : (Source.ofText text).flaw with
  | none =>
      simp only [flaw, Except.ok.injEq] at source
      subst source
      cases read (Source.ofText text).tree <;> rfl
  | some fault => simp [flaw] at source

/-- A text that was read in some way reads as a part. -/
theorem readText_eq_ok {α : Type} {read : Node → Except Fault α} {text : String} {value : α}
    (reads : readText read text = .ok value) :
    ∃ node, readText Except.ok text = .ok node ∧ read node = .ok value := by
  unfold readText at reads ⊢
  simp only at reads ⊢
  split at reads
  next result flaw isRead noFlaw =>
    cases reads
    exact ⟨_, by rw [noFlaw], isRead⟩
  · cases reads
  · cases reads

namespace Tree

/-! ## Exact comparison -/

mutual

/-- The two values are equal, the order of the entries included. -/
def equal : Tree → Tree → Bool
  | .null, other => match other with | .null => true | _ => false
  | .bool a, other => match other with | .bool b => a == b | _ => false
  | .int a, other => match other with | .int b => a == b | _ => false
  | .float a, other => match other with | .float b => a == b | _ => false
  | .text a, other => match other with | .text b => a == b | _ => false
  | .seq items, other => match other with | .seq others => equalItems items others | _ => false
  | .map entries, other =>
    match other with | .map others => equalEntries entries others | _ => false
termination_by structural tree => tree

/-- The items are equal one by one. -/
def equalItems : List Tree → List Tree → Bool
  | [], others => others.isEmpty
  | item :: items, others =>
    match others with
    | other :: others => equal item other && equalItems items others
    | [] => false
termination_by structural items => items

/-- The entries are equal one by one. -/
def equalEntries : List (Tree × Tree) → List (Tree × Tree) → Bool
  | [], others => others.isEmpty
  | entry :: entries, others =>
    match others with
    | other :: others => equalEntry entry other && equalEntries entries others
    | [] => false
termination_by structural entries => entries

/-- The keys are equal, and the values. -/
def equalEntry : Tree × Tree → Tree × Tree → Bool
  | (key, value), other => equal key other.1 && equal value other.2
termination_by structural entry => entry

end

mutual

theorem eq_of_equal (a b : Tree) (same : equal a b = true) : a = b := by
  cases a with
  | seq items =>
      cases b <;> simp only [equal, Bool.false_eq_true] at same
      exact congrArg seq (eq_of_equalItems items _ same)
  | map entries =>
      cases b <;> simp only [equal, Bool.false_eq_true] at same
      exact congrArg map (eq_of_equalEntries entries _ same)
  | null | bool _ | int _ | float _ | text _ => cases b <;> simp_all [equal]
termination_by structural a

theorem eq_of_equalItems (items others : List Tree) (same : equalItems items others = true) :
    items = others := by
  cases items with
  | nil => exact (List.isEmpty_iff.mp same).symm
  | cons item items =>
      cases others with
      | nil => cases same
      | cons other others =>
          obtain ⟨head, tail⟩ := Bool.and_eq_true_iff.mp same
          rw [eq_of_equal item other head, eq_of_equalItems items others tail]
termination_by structural items

theorem eq_of_equalEntries (entries others : List (Tree × Tree))
    (same : equalEntries entries others = true) : entries = others := by
  cases entries with
  | nil => exact (List.isEmpty_iff.mp same).symm
  | cons entry entries =>
      cases others with
      | nil => cases same
      | cons other others =>
          obtain ⟨head, tail⟩ := Bool.and_eq_true_iff.mp same
          rw [eq_of_equalEntry entry other head, eq_of_equalEntries entries others tail]
termination_by structural entries

theorem eq_of_equalEntry (entry other : Tree × Tree) (same : equalEntry entry other = true) :
    entry = other := by
  obtain ⟨key, value⟩ := entry
  obtain ⟨keys, values⟩ := Bool.and_eq_true_iff.mp same
  exact Prod.ext (eq_of_equal key other.1 keys) (eq_of_equal value other.2 values)
termination_by structural entry

end

/-! ## The check -/

/-- Reads the text and compares what it means with the value. -/
def isMeantBy (tree : Tree) (text : String) : Bool :=
  match readText Except.ok text with
  | .error _ => false
  | .ok node =>
    node.untagged &&
      match node.tree with
      | .ok value => value.equal tree
      | .error _ => false

theorem IsMeantBy.of_check {tree : Tree} {text : String} (check : tree.isMeantBy text = true) :
    tree.IsMeantBy text := by
  unfold isMeantBy at check
  split at check
  · cases check
  next node reads =>
    obtain ⟨untagged, means⟩ := Bool.and_eq_true_iff.mp check
    split at means
    next value isTree =>
      have same := eq_of_equal value tree means
      exact ⟨node, reads, untagged, same ▸ isTree⟩
    next => cases means

theorem ReadsBack.of_check {tree : Tree} (check : tree.render?.all tree.isMeantBy = true) :
    tree.ReadsBack := by
  intro text rendered
  rw [rendered] at check
  exact IsMeantBy.of_check check

end Tree

end NetplanEditor.Yaml
