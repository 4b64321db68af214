import NetplanEditor.Proofs.FileSystem.Reader

/-!
# A name that is gone

Removing a name changes no turn of a walk but those that look at this name, and these find it free
(`turn_dropEntry`). So the walk that has come to the name before comes to it again and finds nothing,
or is lost at it on the way, where the path leads through the name that it ends in
(`walkWith_dropEntry`). Either way nothing stands at the path of a name that was removed
(`resolve_removed`), whatever the files are.
-/

namespace NetplanEditor.FileSystem

variable {fs after : FileSystem} {follow : Bool} {dir id : ObjectId} {above : List ObjectId}
  {name : String}

/-- A turn that comes to an object has found it under its name. -/
theorem turn_child {start : ObjectId} {higher : List ObjectId} {comp : String}
    (turned : fs.turn start higher comp = .object id ∨
      ∃ source up comps, fs.turn start higher comp = .link id source up comps) :
    fs.child? start comp = some id := by
  unfold turn look at turned
  repeat' split at turned
  all_goals simp_all

/-- The name is looked up in vain at the end of the walk, or before. -/
def Lost : Except ErrorNumber Place → Prop
  | .error number => number = .noEntry
  | .ok place => place.target? = none

/-- Where a walk ends at a name that is taken, the name has been found. -/
theorem walkWith_child {jump : ObjectId → List ObjectId → List String → Except ErrorNumber Place}
    (jumps : ∀ start higher comps, jump start higher comps = .ok (.entry dir above name (some id)) →
      fs.child? dir name = some id) {start : ObjectId} {higher : List ObjectId} (comps : List String)
    (ends : fs.walkWith follow jump start higher comps = .ok (.entry dir above name (some id))) :
    fs.child? dir name = some id := by
  induction comps generalizing start higher with
  | nil => cases ends
  | cons comp rest ih =>
      rw [walkWith_cons] at ends
      cases turned : fs.turn start higher comp with
      | stop number =>
          rw [turned] at ends
          cases ends
      | move dir above =>
          rw [turned] at ends
          exact ih ends
      | free =>
          rw [turned] at ends
          dsimp only at ends
          split at ends <;> cases ends
      | object other =>
          rw [turned] at ends
          dsimp only at ends
          split at ends
          · cases ends
            exact turn_child (Or.inl turned)
          · exact ih ends
      | link other source up more =>
          rw [turned] at ends
          dsimp only at ends
          split at ends
          · cases ends
            exact turn_child (Or.inr ⟨_, _, _, turned⟩)
          · exact jumps _ _ _ ends

section Dropped

variable (isDir : fs.isDirectoryId dir = true)

include isDir

theorem shape?_dropEntry (other : ObjectId) :
    (fs.dropEntry dir name).shape? other = fs.shape? other := by
  unfold dropEntry
  rw [shape?_setObject]
  split
  next same => rw [same, isDirectoryId_iff.mp isDir, FileObject.shape]
  next => rfl

/-- A turn stays as it was, or it looks at the name that was removed. -/
theorem turn_dropEntry (start : ObjectId) (higher : List ObjectId) (comp : String) :
    (fs.dropEntry dir name).turn start higher comp = fs.turn start higher comp ∨
      (fs.dropEntry dir name).turn start higher comp = .free := by
  have sameDir := isDirectoryId_congr (@shape?_dropEntry fs dir name isDir start)
  have looks : (fs.dropEntry dir name).look start higher comp = fs.look start higher comp ∨
      (fs.dropEntry dir name).look start higher comp = .free := by
    unfold look
    rw [child?_dropEntry]
    by_cases removed : start = dir ∧ comp = name
    · rw [if_pos removed]
      exact Or.inr rfl
    · rw [if_neg removed]
      cases fs.child? start comp with
      | none => exact Or.inr rfl
      | some id =>
          dsimp only
          rw [shape?_dropEntry isDir]
          exact Or.inl rfl
  unfold turn
  rw [sameDir]
  split
  · exact Or.inl rfl
  split
  · exact Or.inl rfl
  split
  · exact Or.inl rfl
  split
  · exact Or.inl rfl
  exact looks

/-- A walk to a name that was removed is lost, at its end or before. -/
theorem walkWith_dropEntry
    {jump jump' : ObjectId → List ObjectId → List String → Except ErrorNumber Place}
    (jumps : ∀ start higher comps, jump start higher comps = .ok (.entry dir above name (some id)) →
      Lost (jump' start higher comps)) {start : ObjectId} {higher : List ObjectId}
    (comps : List String)
    (ends : fs.walkWith follow jump start higher comps = .ok (.entry dir above name (some id))) :
    Lost ((fs.dropEntry dir name).walkWith follow jump' start higher comps) := by
  induction comps generalizing start higher with
  | nil => cases ends
  | cons comp rest ih =>
      rw [walkWith_cons]
      rw [walkWith_cons] at ends
      have gone : (fs.dropEntry dir name).child? dir name = none := by
        rw [child?_dropEntry, if_pos ⟨rfl, rfl⟩]
      rcases @turn_dropEntry fs dir name isDir start higher comp with same | free
      · rw [← same] at ends
        cases turned : (fs.dropEntry dir name).turn start higher comp with
        | stop number =>
            rw [turned] at ends
            cases ends
        | move start higher =>
            rw [turned] at ends
            exact ih ends
        | free =>
            rw [turned] at ends
            dsimp only at ends
            split at ends <;> cases ends
        | object other =>
            rw [turned] at ends
            dsimp only at ends ⊢
            split at ends
            · cases ends
              cases gone.symm.trans (turn_child (Or.inl turned))
            next more =>
              rw [if_neg more]
              exact ih ends
        | link other source up more =>
            rw [turned] at ends
            dsimp only at ends ⊢
            split at ends
            · cases ends
              cases gone.symm.trans (turn_child (Or.inr ⟨_, _, _, turned⟩))
            next on =>
              rw [if_neg on]
              exact jumps _ _ _ ends
      · rw [free]
        dsimp only
        split
        · exact rfl
        · exact rfl

theorem walk_dropEntry {links : Nat} {start : ObjectId} {higher : List ObjectId}
    (comps : List String)
    (ends : fs.walk follow links start higher comps = .ok (.entry dir above name (some id))) :
    Lost ((fs.dropEntry dir name).walk follow links start higher comps) := by
  induction links generalizing start higher comps with
  | zero => exact walkWith_dropEntry isDir (fun _ _ _ none => by cases none) comps ends
  | succ links ih => exact walkWith_dropEntry isDir (fun _ _ comps => ih comps) comps ends

end Dropped

theorem walk_child {links : Nat} {start : ObjectId} {higher : List ObjectId} (comps : List String)
    (ends : fs.walk follow links start higher comps = .ok (.entry dir above name (some id))) :
    fs.child? dir name = some id := by
  induction links generalizing start higher comps with
  | zero => exact walkWith_child (fun _ _ _ none => by cases none) comps ends
  | succ links ih => exact walkWith_child (fun _ _ comps => ih comps) comps ends

/-- Nothing stands at a path after what stood there was removed. -/
theorem resolve_removed {path : String} (ok : fs.remove path = .ok after) :
    after.resolve false path = .error (.numbered .noEntry) := by
  unfold remove at ok
  obtain ⟨place, located, ok⟩ := bind_eq_ok ok
  cases place with
  | directory id above => cases ok
  | entry dir above name target =>
      cases target with
      | none => cases ok
      | some id =>
          dsimp only at ok
          split at ok
          · cases ok
          cases ok
          rw [locate, walkSteps_eq] at located
          cases refused : Path.refusal? path with
          | some cause =>
              rw [refused] at located
              cases located
          | none =>
              rw [refused] at located
              have ends := mapError_eq_ok located
              have isDir := isDirectoryId_of_child? (walk_child _ ends)
              have lost := walk_dropEntry isDir _ ends
              rw [resolve_eq, locate, walkSteps_eq, refused, start_congr (kept_dropEntry isDir)]
              dsimp only [walkOn]
              generalize (fs.dropEntry dir name).walk .. = walked at lost
              cases walked with
              | error number => exact lost ▸ rfl
              | ok place =>
                  have free : place.target? = none := lost
                  simp only [Except.mapError, free]

end NetplanEditor.FileSystem
