import NetplanEditor.FileSystem.Calls

/-!
# Objects and names after a change

The calls change a file system in three ways: a file gets another content, a name of a directory
stands for another object or for none, and a new object comes in under a name. None of them takes an
object away or makes it something else, which is what `Kept` says: all that a walk sees of an object
is its `Shape`, and a shape stays. What a change does to names is said by one equation each for
`child?`, and to contents by one each for `content?`.
-/

namespace NetplanEditor

/-- What a walk sees of an object: everything but the content of a file. -/
inductive Shape
  | file
  | directory
  | symlink (target : String)
  deriving DecidableEq

/-- The shape of an object. -/
def FileObject.shape : FileObject → Shape
  | .file _ _ => .file
  | .directory _ => .directory
  | .symlink target => .symlink target

def FileObject.isLink : FileObject → Bool
  | .symlink _ => true
  | _ => false

/-- The names in a directory with the objects that they stand for. -/
def FileObject.entries : FileObject → List (String × ObjectId)
  | .directory entries => entries
  | _ => []

/-- Looking up a key among the pairs without those of one key. -/
theorem lookup_filter_ne {α β : Type} [DecidableEq α] (pairs : List (α × β)) (key other : α) :
    (pairs.filter (·.1 != key)).lookup other = if other = key then none else pairs.lookup other := by
  induction pairs with
  | nil => simp
  | cons pair pairs ih =>
      rcases pair with ⟨first, value⟩
      by_cases dropped : first = key
      · subst dropped
        have dropped : ((first, value) :: pairs).filter (·.1 != first) =
            pairs.filter (·.1 != first) := by simp
        rw [dropped, ih]
        by_cases same : other = first
        · simp [same]
        · simp [same, List.lookup_cons, beq_eq_false_iff_ne.mpr same]
      · by_cases same : other = first
        · subst same
          simp [dropped]
        · simp [dropped, ih, List.lookup_cons, beq_eq_false_iff_ne.mpr same]

namespace FileSystem

variable {fs after : FileSystem} {id other dir : ObjectId} {name : String} {object : FileObject}

/-- The shape of the object with a number. -/
def shape? (fs : FileSystem) (id : ObjectId) : Option Shape := (fs.object? id).map FileObject.shape

/-- The content of the file with a number. -/
def content? (fs : FileSystem) (id : ObjectId) : Option ByteArray :=
  match fs.object? id with
  | some (.file content _) => some content
  | _ => none

theorem isDirectoryId_iff : fs.isDirectoryId id = true ↔ fs.shape? id = some .directory := by
  unfold isDirectoryId shape?
  cases fs.object? id with
  | none => simp
  | some object => cases object <;> simp [FileObject.shape]

theorem isDirectoryId_congr (same : after.shape? id = fs.shape? id) :
    after.isDirectoryId id = fs.isDirectoryId id := by
  rw [Bool.eq_iff_iff, isDirectoryId_iff, isDirectoryId_iff, same]

/-- Only a file has a content. -/
theorem shape?_of_content? {content : ByteArray} (holds : fs.content? id = some content) :
    fs.shape? id = some .file := by
  unfold content? at holds
  unfold shape?
  cases found : fs.object? id with
  | none => simp [found] at holds
  | some object => cases object <;> simp_all [FileObject.shape]

theorem content?_of_directory (isDir : fs.isDirectoryId id = true) : fs.content? id = none := by
  cases holds : fs.content? id with
  | none => rfl
  | some content =>
      have shape := shape?_of_content? holds
      rw [isDirectoryId_iff.mp isDir] at shape
      cases shape

/-! ## File systems that can come about -/

/-- No number of an object still to come is in use. -/
structure Sound (fs : FileSystem) : Prop where
  fresh : ∀ id, fs.next ≤ id → fs.object? id = none
  child : ∀ dir name id, fs.child? dir name = some id → id < fs.next
  root : fs.root < fs.next
  working : ∀ id ∈ fs.working, id < fs.next

/-- What stays as it is in every change: no object goes or becomes something else. -/
structure Kept (fs after : FileSystem) : Prop where
  root : after.root = fs.root
  working : after.working = fs.working
  next : fs.next ≤ after.next
  shape : ∀ id < fs.next, after.shape? id = fs.shape? id

theorem Kept.trans {middle : FileSystem} (first : Kept fs middle) (second : Kept middle after) :
    Kept fs after where
  root := second.root.trans first.root
  working := second.working.trans first.working
  next := Nat.le_trans first.next second.next
  shape id below :=
    (second.shape id (Nat.lt_of_lt_of_le below first.next)).trans (first.shape id below)

theorem Sound.lt_of_shape (sound : fs.Sound) {shape : Shape} (known : fs.shape? id = some shape) :
    id < fs.next := by
  rcases Nat.lt_or_ge id fs.next with below | above
  · exact below
  · rw [shape?, sound.fresh id above] at known
    cases known

theorem Sound.shape?_of_le (sound : fs.Sound) (above : fs.next ≤ id) : fs.shape? id = none := by
  rw [shape?, sound.fresh id above]
  rfl

theorem Sound.lt_of_isDirectoryId (sound : fs.Sound) (isDir : fs.isDirectoryId id = true) :
    id < fs.next :=
  sound.lt_of_shape (isDirectoryId_iff.mp isDir)

/-- Only a directory has names. -/
theorem isDirectoryId_of_child? (child : fs.child? dir name = some id) :
    fs.isDirectoryId dir = true := by
  unfold child? entriesOf at child
  unfold isDirectoryId
  cases found : fs.object? dir with
  | none => simp [found] at child
  | some object => cases object <;> simp_all

theorem mem_of_lookup {α β : Type} [BEq α] [LawfulBEq α] {pairs : List (α × β)} {key : α} {value : β}
    (found : pairs.lookup key = some value) : (key, value) ∈ pairs := by
  obtain ⟨before, behind, rfl, _⟩ := List.lookup_eq_some_iff.mp found
  exact List.mem_append_right _ List.mem_cons_self

/-- What a name stands for is listed with it. -/
theorem mem_entries_of_child? (child : fs.child? dir name = some id) :
    ∃ object, fs.object? dir = some object ∧ (name, id) ∈ object.entries := by
  unfold child? entriesOf at child
  cases found : fs.object? dir with
  | none => simp [found] at child
  | some object =>
      refine ⟨object, rfl, ?_⟩
      rw [found] at child
      cases object with
      | file _ _ => cases child
      | symlink _ => cases child
      | directory entries => exact mem_of_lookup child

/-- Soundness can be read off the objects. -/
theorem sound_of_objects
    (known : ∀ pair ∈ fs.objects, pair.1 < fs.next ∧ ∀ entry ∈ pair.2.entries, entry.2 < fs.next)
    (root : fs.root < fs.next) (working : ∀ id ∈ fs.working, id < fs.next) : fs.Sound := by
  refine ⟨fun id above => ?_, fun dir name id child => ?_, root, working⟩
  · cases found : fs.object? id with
    | none => rfl
    | some object =>
        have below := (known _ (mem_of_lookup found)).1
        exact absurd below (Nat.not_lt.mpr above)
  · obtain ⟨object, found, entry⟩ := mem_entries_of_child? child
    exact (known _ (mem_of_lookup found)).2 _ entry

/-! ## Another object under a number -/

theorem object?_setObject :
    (fs.setObject id object).object? other = if other = id then some object else fs.object? other := by
  unfold object? setObject
  by_cases same : other = id
  · subst same
    simp
  · simp only [List.lookup_cons, beq_eq_false_iff_ne.mpr same, lookup_filter_ne, if_neg same]

theorem shape?_setObject :
    (fs.setObject id object).shape? other =
      if other = id then some object.shape else fs.shape? other := by
  unfold shape?
  rw [object?_setObject]
  split <;> rfl

/-- Giving an object another value of its shape keeps all shapes. -/
theorem kept_setObject (same : fs.shape? id = some object.shape) :
    Kept fs (fs.setObject id object) := by
  refine ⟨rfl, rfl, Nat.le_refl _, fun other _ => ?_⟩
  rw [shape?_setObject]
  split
  next isId => rw [isId, same]
  next => rfl

/-! ## Another content of a file -/

section Content

variable {content : ByteArray} {executable : Bool}

theorem child?_setContent (isFile : fs.shape? id = some .file) (other : ObjectId) (name : String) :
    (fs.setObject id (.file content executable)).child? other name = fs.child? other name := by
  have same : (fs.setObject id (.file content executable)).entriesOf other = fs.entriesOf other := by
    unfold entriesOf
    rw [object?_setObject]
    by_cases isId : other = id
    · subst isId
      unfold shape? at isFile
      cases found : fs.object? other with
      | none => simp [found] at isFile
      | some object => cases object <;> simp_all [FileObject.shape]
    · rw [if_neg isId]
  rw [child?, same, child?]

theorem content?_setContent (other : ObjectId) :
    (fs.setObject id (.file content executable)).content? other =
      if other = id then some content else fs.content? other := by
  unfold content?
  rw [object?_setObject]
  by_cases isId : other = id
  · rw [if_pos isId, if_pos isId]
  · rw [if_neg isId, if_neg isId]

theorem sound_setContent (sound : fs.Sound) (isFile : fs.shape? id = some .file) :
    (fs.setObject id (.file content executable)).Sound := by
  have below := sound.lt_of_shape isFile
  refine ⟨fun other above => ?_, fun dir name child taken => ?_, sound.root, sound.working⟩
  · have apart : other ≠ id := Nat.ne_of_gt (Nat.lt_of_lt_of_le below above)
    rw [object?_setObject, if_neg apart]
    exact sound.fresh other above
  · rw [child?_setContent isFile] at taken
    exact sound.child dir name child taken

end Content

/-! ## Names of a directory -/

/-- A directory with other names keeps every content and every shape. -/
theorem content?_setDirectory (isDir : fs.isDirectoryId dir = true)
    (entries : List (String × ObjectId)) (other : ObjectId) :
    (fs.setObject dir (.directory entries)).content? other = fs.content? other := by
  unfold content?
  rw [object?_setObject]
  by_cases isId : other = dir
  · subst isId
    unfold isDirectoryId at isDir
    cases found : fs.object? other with
    | none => simp [found] at isDir
    | some object => cases object <;> simp_all
  · rw [if_neg isId]

theorem child?_setEntry (other : ObjectId) (wanted : String) :
    (fs.setEntry dir name id).child? other wanted =
      if other = dir ∧ wanted = name then some id else fs.child? other wanted := by
  unfold child? setEntry
  by_cases sameDir : other = dir
  · subst sameDir
    by_cases sameName : wanted = name
    · subst sameName
      simp [entriesOf, object?_setObject]
    · simp only [sameName, and_false, if_false, entriesOf, object?_setObject, if_true,
        List.lookup_cons, beq_eq_false_iff_ne.mpr sameName]
      rw [lookup_filter_ne, if_neg sameName]
  · simp [sameDir, entriesOf, object?_setObject]

theorem child?_dropEntry (other : ObjectId) (wanted : String) :
    (fs.dropEntry dir name).child? other wanted =
      if other = dir ∧ wanted = name then none else fs.child? other wanted := by
  unfold child? dropEntry
  by_cases sameDir : other = dir
  · subst sameDir
    by_cases sameName : wanted = name
    · subst sameName
      simp [entriesOf, object?_setObject, lookup_filter_ne]
    · simp only [sameName, and_false, if_false, entriesOf, object?_setObject, if_true]
      rw [lookup_filter_ne, if_neg sameName]
  · simp [sameDir, entriesOf, object?_setObject]

theorem kept_setEntry (isDir : fs.isDirectoryId dir = true) : Kept fs (fs.setEntry dir name id) :=
  kept_setObject (isDirectoryId_iff.mp isDir)

theorem kept_dropEntry (isDir : fs.isDirectoryId dir = true) : Kept fs (fs.dropEntry dir name) :=
  kept_setObject (isDirectoryId_iff.mp isDir)

theorem content?_setEntry (isDir : fs.isDirectoryId dir = true) (other : ObjectId) :
    (fs.setEntry dir name id).content? other = fs.content? other :=
  content?_setDirectory isDir _ other

theorem content?_dropEntry (isDir : fs.isDirectoryId dir = true) (other : ObjectId) :
    (fs.dropEntry dir name).content? other = fs.content? other :=
  content?_setDirectory isDir _ other

theorem sound_setEntry (sound : fs.Sound) (isDir : fs.isDirectoryId dir = true)
    (below : id < fs.next) : (fs.setEntry dir name id).Sound := by
  have dirBelow := sound.lt_of_isDirectoryId isDir
  refine ⟨fun other above => ?_, fun other wanted child taken => ?_, sound.root, sound.working⟩
  · have apart : other ≠ dir := Nat.ne_of_gt (Nat.lt_of_lt_of_le dirBelow above)
    rw [setEntry, object?_setObject, if_neg apart]
    exact sound.fresh other above
  · rw [child?_setEntry] at taken
    split at taken
    · cases taken
      exact below
    · exact sound.child other wanted child taken

theorem sound_dropEntry (sound : fs.Sound) (isDir : fs.isDirectoryId dir = true) :
    (fs.dropEntry dir name).Sound := by
  have dirBelow := sound.lt_of_isDirectoryId isDir
  refine ⟨fun other above => ?_, fun other wanted child taken => ?_, sound.root, sound.working⟩
  · have apart : other ≠ dir := Nat.ne_of_gt (Nat.lt_of_lt_of_le dirBelow above)
    rw [dropEntry, object?_setObject, if_neg apart]
    exact sound.fresh other above
  · rw [child?_dropEntry] at taken
    split at taken
    · cases taken
    · exact sound.child other wanted child taken

/-- An object goes from one name of a directory to another. -/
theorem moveEntry_spec (sound : fs.Sound) (isDir : fs.isDirectoryId dir = true) (below : id < fs.next)
    (source dest : String) (moved : (fs.setEntry dir dest id).dropEntry dir source = after) :
    after.Sound ∧ Kept fs after ∧ after.next = fs.next ∧
      (∀ other wanted, after.child? other wanted =
        if other = dir ∧ wanted = source then none
        else if other = dir ∧ wanted = dest then some id else fs.child? other wanted) ∧
      ∀ other, after.content? other = fs.content? other := by
  subst moved
  have entered : Kept fs (fs.setEntry dir dest id) := kept_setEntry isDir
  have isDirMiddle : (fs.setEntry dir dest id).isDirectoryId dir = true :=
    (isDirectoryId_congr (entered.shape dir (sound.lt_of_isDirectoryId isDir))).trans isDir
  refine ⟨sound_dropEntry (sound_setEntry sound isDir below) isDirMiddle,
    entered.trans (kept_dropEntry isDirMiddle), rfl, fun other wanted => ?_, fun other => ?_⟩
  · rw [child?_dropEntry, child?_setEntry]
  · rw [content?_dropEntry isDirMiddle, content?_setEntry isDir]

/-! ## New objects -/

section New

variable (sound : fs.Sound) (blank : ∀ entries, object = .directory entries → entries = [])

include sound blank

/-- A new object that is not yet under any name brings no names with it. -/
theorem child?_setNew (other : ObjectId) (wanted : String) :
    (fs.setObject fs.next object).child? other wanted = fs.child? other wanted := by
  unfold child? entriesOf
  rw [object?_setObject]
  by_cases isNew : other = fs.next
  · subst isNew
    rw [if_pos rfl, sound.fresh _ (Nat.le_refl _)]
    cases object with
    | directory entries => simp [blank entries rfl]
    | file _ _ => rfl
    | symlink _ => rfl
  · rw [if_neg isNew]

omit blank in
theorem isDirectoryId_setNew (isDir : fs.isDirectoryId dir = true) :
    (fs.setObject fs.next object).isDirectoryId dir = true := by
  have apart : dir ≠ fs.next := Nat.ne_of_lt (sound.lt_of_isDirectoryId isDir)
  rw [isDirectoryId_iff, shape?_setObject, if_neg apart]
  exact isDirectoryId_iff.mp isDir

theorem child?_addObject (other : ObjectId) (wanted : String) :
    (fs.addObject dir name object).child? other wanted =
      if other = dir ∧ wanted = name then some fs.next else fs.child? other wanted := by
  have withNext : (fs.addObject dir name object).child? other wanted =
      ((fs.setObject fs.next object).setEntry dir name fs.next).child? other wanted := rfl
  rw [withNext, child?_setEntry, child?_setNew sound blank]

omit blank in
theorem kept_addObject (isDir : fs.isDirectoryId dir = true) :
    Kept fs (fs.addObject dir name object) := by
  refine ⟨rfl, rfl, Nat.le_succ _, fun other below => ?_⟩
  have withNext : (fs.addObject dir name object).shape? other =
      ((fs.setObject fs.next object).setEntry dir name fs.next).shape? other := rfl
  have named : Kept (fs.setObject fs.next object)
      ((fs.setObject fs.next object).setEntry dir name fs.next) :=
    kept_setEntry (isDirectoryId_setNew sound isDir)
  rw [withNext, named.shape other below, shape?_setObject, if_neg (Nat.ne_of_lt below)]

omit blank in
theorem shape?_addObject (isDir : fs.isDirectoryId dir = true) :
    (fs.addObject dir name object).shape? fs.next = some object.shape := by
  have apart : fs.next ≠ dir := Nat.ne_of_gt (sound.lt_of_isDirectoryId isDir)
  have withNext : (fs.addObject dir name object).shape? fs.next =
      ((fs.setObject fs.next object).setEntry dir name fs.next).shape? fs.next := rfl
  rw [withNext, setEntry, shape?_setObject, if_neg apart, shape?_setObject, if_pos rfl]

omit blank in
theorem content?_addObject (isDir : fs.isDirectoryId dir = true) (other : ObjectId) :
    (fs.addObject dir name object).content? other =
      (fs.setObject fs.next object).content? other :=
  content?_setEntry (isDirectoryId_setNew sound isDir) other

theorem sound_addObject (isDir : fs.isDirectoryId dir = true) :
    (fs.addObject dir name object).Sound := by
  have dirBelow := sound.lt_of_isDirectoryId isDir
  refine ⟨fun other above => ?_, fun other wanted child taken => ?_,
    Nat.lt_succ_of_lt sound.root, fun id member => Nat.lt_succ_of_lt (sound.working id member)⟩
  · have above : fs.next + 1 ≤ other := above
    have withNext : (fs.addObject dir name object).object? other =
        ((fs.setObject fs.next object).setEntry dir name fs.next).object? other := rfl
    have notDir : other ≠ dir := Nat.ne_of_gt (Nat.lt_trans dirBelow above)
    have notNew : other ≠ fs.next := Nat.ne_of_gt above
    rw [withNext, setEntry, object?_setObject, if_neg notDir, object?_setObject, if_neg notNew]
    exact sound.fresh other (Nat.le_of_lt above)
  · rw [child?_addObject sound blank] at taken
    split at taken
    · cases taken
      exact Nat.lt_succ_self _
    · exact Nat.lt_succ_of_lt (sound.child other wanted child taken)

/-- Of the numbers that were not in use, one is that of the new object. -/
theorem shape?_addObject_of_le (isDir : fs.isDirectoryId dir = true) {other : ObjectId}
    (above : fs.next ≤ other) :
    (fs.addObject dir name object).shape? other = none ∨
      (fs.addObject dir name object).shape? other = some object.shape := by
  rcases Nat.eq_or_lt_of_le above with rfl | beyond
  · exact Or.inr (shape?_addObject sound isDir)
  · exact Or.inl ((sound_addObject sound blank isDir).shape?_of_le beyond)

end New

end FileSystem

end NetplanEditor
