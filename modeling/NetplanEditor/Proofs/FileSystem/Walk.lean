import NetplanEditor.Proofs.FileSystem.Objects

/-!
# What a walk depends on

A walk takes one component after the other, and `turn` says what one of them does to it. Everything
that is asked about a walk is gathered along these turns by `roam`, each question by a `Reading` of
its own: where the walk ends (`walk_eq_roam`), which names it looks at (`visits`), and how it stands
behind the components of a directory (`lead`). So there is one lemma about change for all of them: a
change that leaves the names alone which a walk looks at leaves the walk alone (`roam_congr`).
-/

namespace NetplanEditor

/-- A name in a directory. -/
abbrev Spot := ObjectId × String

/-- Where a walk has come to: a directory, those above it, and how many links it can still follow. -/
structure Folder where
  links : Nat
  dir : ObjectId
  above : List ObjectId
  deriving DecidableEq

/-- What one component does to a walk. -/
inductive Turn
  /-- The walk fails. -/
  | stop (number : ErrorNumber)
  /-- It goes on in a directory without looking at a name. -/
  | move (dir : ObjectId) (above : List ObjectId)
  /-- The name is looked at and not taken. -/
  | free
  /-- The name stands for an object that is no link. -/
  | object (id : ObjectId)
  /-- The name stands for a link to the components, walked from a directory. -/
  | link (id : ObjectId) (dir : ObjectId) (above : List ObjectId) (comps : List String)

/-- What is made of a walk. -/
structure Reading (α : Type) where
  /-- All components are behind it. -/
  arrive : Folder → α
  /-- It fails. -/
  stop : ErrorNumber → α
  /-- A name is not taken; `last` says that no component stands behind it. -/
  free : Folder → String → (last : Bool) → α
  /-- A name is taken; what is made of the rest of the walk is missing where it ends there. -/
  taken : Folder → String → ObjectId → Option α → α

namespace FileSystem

/-- What a name does to a walk that looks at it. -/
def look (fs : FileSystem) (dir : ObjectId) (above : List ObjectId) (name : String) : Turn :=
  match fs.child? dir name with
  | none => .free
  | some id =>
    match fs.shape? id with
    | some (.symlink target) =>
      if Path.isAbsolute target then .link id fs.root [] (Path.components target)
      else .link id dir above (Path.components target)
    | _ => .object id

/-- What a component does to a walk that has come to a directory. -/
def turn (fs : FileSystem) (dir : ObjectId) (above : List ObjectId) (name : String) : Turn :=
  if !fs.isDirectoryId dir then .stop .notADirectory
  else if name == "." then .move dir above
  else if name == ".." then
    match above with
    | [] => .move dir []
    | up :: higher => .move up higher
  else if name.utf8ByteSize > maxName then .stop .nameTooLong
  else fs.look dir above name

/-- Gathers what a reading makes of a walk along the components; `jump` goes on behind a link. -/
def roamWith {α : Type} (fs : FileSystem) (reading : Reading α) (follow : Bool) (links : Nat)
    (jump : ObjectId → List ObjectId → List String → α) :
    (dir : ObjectId) → (above : List ObjectId) → List String → α
  | dir, above, [] => reading.arrive ⟨links, dir, above⟩
  | dir, above, name :: rest =>
    match fs.turn dir above name with
    | .stop number => reading.stop number
    | .move dir above => roamWith fs reading follow links jump dir above rest
    | .free => reading.free ⟨links, dir, above⟩ name rest.isEmpty
    | .object id =>
      reading.taken ⟨links, dir, above⟩ name id <|
        if rest.isEmpty then none
        else some (roamWith fs reading follow links jump id (dir :: above) rest)
    | .link id start higher comps =>
      reading.taken ⟨links, dir, above⟩ name id <|
        if rest.isEmpty && !follow then none else some (jump start higher (comps ++ rest))

/-- Gathers what a reading makes of a walk that follows at most `links` symbolic links. -/
def roam {α : Type} (fs : FileSystem) (reading : Reading α) (follow : Bool) :
    (links : Nat) → ObjectId → List ObjectId → List String → α
  | 0 => roamWith fs reading follow 0 fun _ _ _ => reading.stop .tooManyLinks
  | links + 1 => roamWith fs reading follow (links + 1) (roam fs reading follow links)

/-! ## What is asked about a walk -/

/-- Where the walk ends. -/
def ending : Reading (Except ErrorNumber Place) where
  arrive folder := .ok (.directory folder.dir folder.above)
  stop number := .error number
  free folder name last :=
    if last then .ok (.entry folder.dir folder.above name none) else .error .noEntry
  taken folder name id rest := rest.getD (.ok (.entry folder.dir folder.above name (some id)))

/-- The names that the walk looks at. -/
def looking : Reading (List Spot) where
  arrive _ := []
  stop _ := []
  free folder name _ := [(folder.dir, name)]
  taken folder name _ rest := (folder.dir, name) :: rest.getD []

@[simp] theorem looking_free (folder : Folder) (name : String) (last : Bool) :
    looking.free folder name last = [(folder.dir, name)] := rfl

@[simp] theorem looking_taken (folder : Folder) (name : String) (id : ObjectId)
    (rest : Option (List Spot)) :
    looking.taken folder name id rest = (folder.dir, name) :: rest.getD [] := rfl

/-- Where the walk has come to behind its last component. -/
def leading : Reading (Except ErrorNumber Folder) where
  arrive folder := .ok folder
  stop number := .error number
  free _ _ _ := .error .noEntry
  taken _ _ _ rest := rest.getD (.error .noEntry)

/-- The names that a walk looks at. -/
def visits (fs : FileSystem) (follow : Bool) (folder : Folder) (comps : List String) : List Spot :=
  fs.roam looking follow folder.links folder.dir folder.above comps

/-- The directory that the components lead to from another, if it is one. The dot behind them asks
for that. -/
def lead (fs : FileSystem) (folder : Folder) (comps : List String) : Except ErrorNumber Folder :=
  fs.roam leading true folder.links folder.dir folder.above (comps ++ ["."])

/-- The names that are looked at on the way to a directory. -/
def way (fs : FileSystem) (folder : Folder) (comps : List String) : List Spot :=
  fs.visits true folder (comps ++ ["."])

/-- Walks the components from where another walk has come to. -/
def walkOn (fs : FileSystem) (follow : Bool) (folder : Folder) (comps : List String) :
    Except ErrorNumber Place :=
  fs.walk follow folder.links folder.dir folder.above comps

variable {fs after : FileSystem} {follow : Bool} {links : Nat} {dir : ObjectId}
  {above : List ObjectId} {name : String}

/-- A walk goes on with its other components as the first one turns it. -/
theorem walkWith_cons {jump : ObjectId → List ObjectId → List String → Except ErrorNumber Place}
    (rest : List String) :
    fs.walkWith follow jump dir above (name :: rest) =
      match fs.turn dir above name with
      | .stop number => .error number
      | .move dir above => fs.walkWith follow jump dir above rest
      | .free => if rest.isEmpty then .ok (.entry dir above name none) else .error .noEntry
      | .object id =>
        if rest.isEmpty then .ok (.entry dir above name (some id))
        else fs.walkWith follow jump id (dir :: above) rest
      | .link id start higher comps =>
        if rest.isEmpty && !follow then .ok (.entry dir above name (some id))
        else jump start higher (comps ++ rest) := by
  unfold turn
  simp only [walkWith]
  by_cases notDir : (!fs.isDirectoryId dir) = true
  · simp only [notDir, if_true]
  by_cases dot : (name == ".") = true
  · simp only [notDir, dot, if_true, if_false, Bool.false_eq_true]
  by_cases dots : (name == "..") = true
  · cases above <;> simp only [notDir, dot, dots, if_true, if_false, Bool.false_eq_true]
  by_cases long : name.utf8ByteSize > maxName
  · simp only [notDir, dot, dots, long, if_true, if_false, Bool.false_eq_true]
  simp only [notDir, dot, dots, long, if_false, Bool.false_eq_true, look]
  cases fs.child? dir name with
  | none => rfl
  | some id =>
      dsimp only [shape?]
      generalize fs.object? id = found
      cases found with
      | none => rfl
      | some object =>
          cases object with
          | file _ _ => rfl
          | directory _ => rfl
          | symlink target =>
              simp only [Option.map_some, FileObject.shape]
              cases Path.isAbsolute target <;> cases rest.isEmpty <;> cases follow <;> rfl

/-- Where a walk ends is gathered along its turns. -/
theorem walk_eq_roam (comps : List String) :
    fs.walk follow links dir above comps = fs.roam ending follow links dir above comps := by
  have step {jump jump' : ObjectId → List ObjectId → List String → Except ErrorNumber Place}
      (links : Nat) (jumps : jump = jump') (dir : ObjectId) (above : List ObjectId)
      (comps : List String) :
      fs.walkWith follow jump dir above comps =
        fs.roamWith ending follow links jump' dir above comps := by
    subst jumps
    induction comps generalizing dir above with
    | nil => rfl
    | cons name rest ih =>
        rw [walkWith_cons, roamWith]
        cases fs.turn dir above name with
        | stop number => rfl
        | move dir above => exact ih dir above
        | free => rfl
        | object id => cases empty : rest.isEmpty <;> simp [ending, ih]
        | link id start higher comps => cases empty : rest.isEmpty && !follow <;> simp [ending]
  induction links generalizing dir above comps with
  | zero => exact step 0 rfl dir above comps
  | succ links ih =>
      exact step (links + 1) (funext fun dir => funext fun above => funext fun comps => ih comps)
        dir above comps

/-! ## Walks and changes -/

/-- The directory of a walk and those above it are old. -/
structure Within (fs : FileSystem) (dir : ObjectId) (above : List ObjectId) : Prop where
  dir : dir < fs.next
  above : ∀ up ∈ above, up < fs.next

/-- A name stands for the same before and after a change. -/
def SameChild (fs after : FileSystem) (spot : Spot) : Prop :=
  after.child? spot.1 spot.2 = fs.child? spot.1 spot.2

/-- What a turn says about the name it looks at, and where it leaves the walk. -/
def TurnSpec (fs : FileSystem) (dir : ObjectId) (name : String) : Turn → Prop
  | .stop _ => True
  | .move dir' above' => fs.Within dir' above'
  | .free => fs.child? dir name = none
  | .object id => fs.child? dir name = some id ∧ id < fs.next
  | .link id start higher _ =>
    fs.child? dir name = some id ∧ (∃ target, fs.shape? id = some (.symlink target)) ∧
      fs.Within start higher

theorem turn_spec (sound : fs.Sound) (within : fs.Within dir above) :
    fs.TurnSpec dir name (fs.turn dir above name) := by
  unfold turn
  split
  · trivial
  split
  · exact within
  split
  · cases above with
    | nil => exact within
    | cons up higher =>
        exact ⟨within.above _ List.mem_cons_self,
          fun up member => within.above up (List.mem_cons_of_mem _ member)⟩
  split
  · trivial
  unfold look
  split
  next free => exact free
  next id child =>
    split
    next target isLink =>
      split
      · exact ⟨child, ⟨target, isLink⟩, sound.root, fun _ member => (List.not_mem_nil member).elim⟩
      · exact ⟨child, ⟨target, isLink⟩, within⟩
    next => exact ⟨child, sound.child _ _ _ child⟩

/-- A component turns a walk the same way after a change that keeps what its name stands for. The
name counts only if the turn looks at it. -/
theorem turn_congr (sound : fs.Sound) (kept : Kept fs after) (below : dir < fs.next)
    (same : (∀ number, fs.turn dir above name ≠ .stop number) →
      (∀ dir' above', fs.turn dir above name ≠ .move dir' above') →
      SameChild fs after (dir, name)) :
    after.turn dir above name = fs.turn dir above name := by
  have sameDir := isDirectoryId_congr (kept.shape dir below)
  unfold turn at same ⊢
  rw [sameDir]
  by_cases notDir : (!fs.isDirectoryId dir) = true
  · simp only [notDir, if_true]
  by_cases dot : (name == ".") = true
  · simp only [notDir, dot, if_true, if_false, Bool.false_eq_true]
  by_cases dots : (name == "..") = true
  · cases above <;> simp only [notDir, dot, dots, if_true, if_false, Bool.false_eq_true]
  by_cases long : name.utf8ByteSize > maxName
  · simp only [notDir, dot, dots, long, if_true, if_false, Bool.false_eq_true]
  simp only [notDir, dot, dots, long, if_false, Bool.false_eq_true] at same ⊢
  have sameChild : after.child? dir name = fs.child? dir name := by
    refine same (fun number turns => ?_) (fun dir' above' turns => ?_) <;>
    · unfold look at turns
      split at turns
      · cases turns
      · split at turns
        · split at turns <;> cases turns
        · cases turns
  unfold look
  rw [sameChild]
  cases child : fs.child? dir name with
  | none => rfl
  | some id =>
      dsimp only
      rw [kept.shape id (sound.child dir name id child), kept.root]

theorem roamWith_congr {α : Type} {reading : Reading α}
    {jump jump' : ObjectId → List ObjectId → List String → α}
    {jumpVisits : ObjectId → List ObjectId → List String → List Spot}
    (sound : fs.Sound) (kept : Kept fs after)
    (jumps : ∀ dir above comps, fs.Within dir above →
      (∀ spot ∈ jumpVisits dir above comps, SameChild fs after spot) →
      jump' dir above comps = jump dir above comps)
    (within : fs.Within dir above) (comps : List String)
    (same : ∀ spot ∈ fs.roamWith looking follow links jumpVisits dir above comps,
      SameChild fs after spot) :
    after.roamWith reading follow links jump' dir above comps =
      fs.roamWith reading follow links jump dir above comps := by
  induction comps generalizing dir above with
  | nil => rfl
  | cons name rest ih =>
      rw [roamWith] at same
      rw [roamWith, roamWith]
      have turns : after.turn dir above name = fs.turn dir above name := by
        refine turn_congr sound kept within.dir fun noStop noMove => ?_
        cases turned : fs.turn dir above name with
        | stop number => exact (noStop number turned).elim
        | move dir' above' => exact (noMove dir' above' turned).elim
        | free => exact same _ (by simp [turned])
        | object id => exact same _ (by simp [turned])
        | link id start higher comps => exact same _ (by simp [turned])
      have spec : fs.TurnSpec dir name (fs.turn dir above name) := turn_spec sound within
      rw [turns]
      cases turned : fs.turn dir above name with
      | stop number => rfl
      | move dir' above' =>
          rw [turned] at same spec
          exact ih spec same
      | free => rfl
      | object id =>
          rw [turned] at same spec
          cases last : rest.isEmpty with
          | true => rfl
          | false =>
              have inside : fs.Within id (dir :: above) :=
                ⟨spec.2, List.forall_mem_cons.mpr ⟨within.dir, within.above⟩⟩
              have later := ih inside fun spot member => same spot (by simp [last, member])
              simp only [Bool.false_eq_true, if_false, later]
      | link id start higher comps =>
          rw [turned] at same spec
          cases last : rest.isEmpty && !follow with
          | true => rfl
          | false =>
              have later := jumps start higher (comps ++ rest) spec.2.2 fun spot member =>
                same spot (by simp [last, member])
              simp only [Bool.false_eq_true, if_false, later]

/-- A change that leaves the names alone which a walk looks at leaves the walk alone. -/
theorem roam_congr {α : Type} (reading : Reading α) (sound : fs.Sound) (kept : Kept fs after)
    (folder : Folder) (within : fs.Within folder.dir folder.above) {comps : List String}
    (same : ∀ spot ∈ fs.visits follow folder comps, SameChild fs after spot) :
    after.roam reading follow folder.links folder.dir folder.above comps =
      fs.roam reading follow folder.links folder.dir folder.above comps := by
  rcases folder with ⟨links, dir, above⟩
  unfold visits at same
  dsimp only at within same ⊢
  induction links generalizing dir above comps with
  | zero => exact roamWith_congr sound kept (fun _ _ _ _ _ => rfl) within comps same
  | succ links ih =>
      exact roamWith_congr sound kept (fun dir above comps inside => ih dir above inside) within
        comps same

theorem walkOn_congr (sound : fs.Sound) (kept : Kept fs after) {folder : Folder}
    (within : fs.Within folder.dir folder.above) {comps : List String}
    (same : ∀ spot ∈ fs.visits follow folder comps, SameChild fs after spot) :
    after.walkOn follow folder comps = fs.walkOn follow folder comps := by
  simpa only [walkOn, walk_eq_roam] using roam_congr ending sound kept folder within same

theorem lead_congr (sound : fs.Sound) (kept : Kept fs after) {folder : Folder}
    (within : fs.Within folder.dir folder.above) {comps : List String}
    (same : ∀ spot ∈ fs.way folder comps, SameChild fs after spot) :
    after.lead folder comps = fs.lead folder comps :=
  roam_congr leading sound kept folder within same

theorem visits_congr (sound : fs.Sound) (kept : Kept fs after) {folder : Folder}
    (within : fs.Within folder.dir folder.above) {comps : List String}
    (same : ∀ spot ∈ fs.visits follow folder comps, SameChild fs after spot) :
    after.visits follow folder comps = fs.visits follow folder comps :=
  roam_congr looking sound kept folder within same

end FileSystem

end NetplanEditor
