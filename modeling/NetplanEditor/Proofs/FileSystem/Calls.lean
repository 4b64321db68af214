import NetplanEditor.Proofs.FileSystem.Folder
import NetplanEditor.Proofs.FileSystem.Paths
import NetplanEditor.Proofs.Result

/-!
# What each call does

A path names something in the directory that its other components lead to. This file says for each
call on such paths what it has found there and what it has changed when it succeeds: one lemma for
each call, in terms of the names of that one directory. Nothing is changed by a call that fails.
-/

namespace NetplanEditor

/-- Why no walk along the path is made at all. -/
def Path.refusal? (path : String) : Option SystemError :=
  if path.toList.contains '\x00' then some .nulInPath
  else if path.isEmpty then some (.numbered .noEntry)
  else if path.utf8ByteSize > FileSystem.maxPath then some (.numbered .nameTooLong)
  else none

namespace FileSystem

/-- Where walks start. -/
def start (fs : FileSystem) (absolute : Bool) : Folder :=
  match absolute, fs.working with
  | false, dir :: above => ⟨maxLinks, dir, above⟩
  | _, _ => ⟨maxLinks, fs.root, []⟩

/-- The directory that the components of a path lead to. -/
def home (fs : FileSystem) (absolute : Bool) (comps : List String) : Except ErrorNumber Folder :=
  fs.lead (fs.start absolute) comps

variable {fs after : FileSystem} {follow absolute : Bool} {path old new name oldName newName : String}
  {comps : List String}

theorem start_within (sound : fs.Sound) (absolute : Bool) :
    fs.Within (fs.start absolute).dir (fs.start absolute).above := by
  have root : fs.Within fs.root [] :=
    ⟨sound.root, fun _ member => (List.not_mem_nil member).elim⟩
  unfold start
  split
  next dir above working =>
    have inside := sound.working
    rw [working] at inside
    exact ⟨inside dir List.mem_cons_self, fun up member => inside up (List.mem_cons_of_mem _ member)⟩
  next => exact root

theorem start_congr (kept : Kept fs after) (absolute : Bool) :
    after.start absolute = fs.start absolute := by
  simp only [start, kept.working, kept.root]

theorem walkSteps_eq (path : String) (steps : List String) :
    fs.walkSteps follow path steps =
      match Path.refusal? path with
      | some cause => .error cause
      | none => (fs.walkOn follow (fs.start (Path.isAbsolute path)) steps).mapError .numbered := by
  unfold walkSteps Path.refusal?
  by_cases nul : path.toList.contains '\x00' = true
  · simp only [nul, if_true]
  by_cases empty : path.isEmpty = true
  · simp only [nul, empty, Bool.false_eq_true, if_false, if_true]
  by_cases long : path.utf8ByteSize > maxPath
  · simp only [nul, empty, long, Bool.false_eq_true, if_false, if_true]
  simp only [nul, empty, long, Bool.false_eq_true, if_false, walkOn, start]
  cases Path.isAbsolute path with
  | true => cases fs.working <;> rfl
  | false => cases fs.working <;> rfl

/-! ## Finding a name -/

/-- A walk to a name goes to its directory and then along the name. -/
theorem locateName_eq (names : Path.Names path absolute comps name) :
    fs.locateName follow path =
      match Path.refusal? path with
      | some cause => .error cause
      | none =>
        (goOn (fs.home absolute comps) fun folder =>
          fs.walkOn follow folder [name]).mapError .numbered := by
  rw [locateName, walkSteps_eq, names.components, names.absolute, walkOn_append]
  rfl

theorem locate_eq_locateName (names : Path.Names path absolute comps name) :
    fs.locate follow path = fs.locateName follow path := by
  simp only [locate, locateName, names.slash, Bool.false_eq_true, if_false, List.append_nil]

/-- A walk along the path comes to the directory that its name is in, and can look at the name. -/
structure Reaches (fs : FileSystem) (path : String) (absolute : Bool) (comps : List String)
    (name : String) (folder : Folder) : Prop where
  home : fs.home absolute comps = .ok folder
  isDir : fs.isDirectoryId folder.dir = true
  within : fs.Within folder.dir folder.above
  plain : Plain name
  accepted : Path.refusal? path = none

/-- Of single components only a name that fits ends a walk at an entry. -/
theorem plain_of_walkOn {folder : Folder} (isDir : fs.isDirectoryId folder.dir = true)
    (dot : name ≠ ".") (dots : name ≠ "..") {place : Place}
    (ends : fs.walkOn follow folder [name] = .ok place) : Plain name := by
  refine ⟨dot, dots, ?_⟩
  rcases Nat.lt_or_ge maxName name.utf8ByteSize with long | short
  · have stops : fs.turn folder.dir folder.above name = .stop .nameTooLong := by
      simp [turn, isDir, dot, dots, long]
    have fails : fs.walkOn follow folder [name] = .error .nameTooLong := by
      rw [walkOn, walk_eq_roam]
      cases folder.links <;> simp [roam, roamWith, stops, ending]
    rw [fails] at ends
    cases ends
  · exact short

/-- A component that is no name leaves a walk in a directory. -/
theorem walkOn_moves {folder : Folder} (isDir : fs.isDirectoryId folder.dir = true)
    (moves : name = "." ∨ name = "..") :
    ∃ dir above, fs.walkOn follow folder [name] = .ok (.directory dir above) := by
  have turns : ∃ dir above, fs.turn folder.dir folder.above name = .move dir above := by
    rcases moves with rfl | rfl
    · exact ⟨_, _, turn_dot isDir⟩
    · cases folder.above with
      | nil => exact ⟨folder.dir, [], by simp [turn, isDir]⟩
      | cons up higher => exact ⟨up, higher, by simp [turn, isDir]⟩
  obtain ⟨dir, above, turns⟩ := turns
  refine ⟨dir, above, ?_⟩
  rw [walkOn, walk_eq_roam]
  cases folder.links <;> simp [roam, roamWith, turns, ending]

/-- A walk that ends has come to the directory. -/
theorem locate_ok (sound : fs.Sound) (names : Path.Names path absolute comps name) {place : Place}
    (ok : fs.locate follow path = .ok place) :
    ∃ folder, fs.Reaches path absolute comps name folder ∧
      fs.walkOn follow folder [name] = .ok place := by
  rw [locate_eq_locateName names, locateName_eq names] at ok
  split at ok
  · cases ok
  next accepted =>
    have ends := mapError_eq_ok ok
    cases home : fs.home absolute comps with
    | error number =>
        rw [home] at ends
        cases ends
    | ok folder =>
        rw [home] at ends
        obtain ⟨isDir, within, _⟩ := lead_cases sound (start_within sound absolute) home
        have plain := plain_of_walkOn isDir names.dot names.dots ends
        exact ⟨folder, ⟨home, isDir, within, plain, accepted⟩, ends⟩

theorem Reaches.locate {folder : Folder} (reaches : fs.Reaches path absolute comps name folder)
    (names : Path.Names path absolute comps name) :
    fs.locate follow path = (fs.walkOn follow folder [name]).mapError .numbered := by
  rw [locate_eq_locateName names, locateName_eq names, reaches.accepted, reaches.home]
  rfl

/-- The walk to a name of the directory that does not follow a link under it. -/
theorem Reaches.locate_name {folder : Folder} (reaches : fs.Reaches path absolute comps name folder)
    (names : Path.Names path absolute comps name) :
    fs.locate false path =
      .ok (.entry folder.dir folder.above name (fs.child? folder.dir name)) := by
  rw [reaches.locate names, walkOn_plain_name reaches.isDir reaches.plain]
  rfl

/-- A walk that does not follow a link under the name ends at the name. -/
theorem locate_name_ok (sound : fs.Sound) (names : Path.Names path absolute comps name)
    {place : Place} (ok : fs.locate false path = .ok place) :
    ∃ folder, fs.Reaches path absolute comps name folder ∧
      place = .entry folder.dir folder.above name (fs.child? folder.dir name) := by
  obtain ⟨folder, reaches, _⟩ := locate_ok sound names ok
  rw [reaches.locate_name names] at ok
  cases ok
  exact ⟨folder, reaches, rfl⟩

/-- Two names of one directory are reached by way of the same folder. -/
theorem Reaches.folder_eq {folder other : Folder}
    (left : fs.Reaches old absolute comps oldName folder)
    (right : fs.Reaches new absolute comps newName other) : other = folder := by
  have same := right.home.symm.trans left.home
  exact Except.ok.inj same

/-- The object that a walk without following ends at stands under the name. -/
theorem resolve_name_ok (sound : fs.Sound) (names : Path.Names path absolute comps name)
    {id : ObjectId} (ok : fs.resolve false path = .ok id) :
    ∃ folder, fs.Reaches path absolute comps name folder ∧
      fs.child? folder.dir name = some id := by
  unfold resolve at ok
  cases located : fs.locate false path with
  | error cause =>
      rw [located] at ok
      cases ok
  | ok place =>
      obtain ⟨folder, reaches, rfl⟩ := locate_name_ok sound names located
      rw [located] at ok
      cases child : fs.child? folder.dir name with
      | none =>
          rw [child] at ok
          cases ok
      | some found =>
          rw [child] at ok
          cases ok
          exact ⟨folder, reaches, child⟩

/-! ## The calls -/

/-- A name that was removed stood for something other than a directory. -/
theorem remove_ok (sound : fs.Sound) (names : Path.Names path absolute comps name)
    (ok : fs.remove path = .ok after) :
    ∃ folder id, fs.Reaches path absolute comps name folder ∧
      fs.child? folder.dir name = some id ∧ fs.isDirectoryId id = false ∧
      after = fs.dropEntry folder.dir name := by
  unfold remove at ok
  obtain ⟨place, located, ok⟩ := bind_eq_ok ok
  obtain ⟨folder, reaches, rfl⟩ := locate_name_ok sound names located
  cases child : fs.child? folder.dir name with
  | none =>
      rw [child] at ok
      cases ok
  | some id =>
      rw [child] at ok
      dsimp only at ok
      split at ok
      · cases ok
      next notDir =>
        cases ok
        exact ⟨folder, id, reaches, child, Bool.not_eq_true _ ▸ notDir, rfl⟩

/-- Where a name in a reachable directory cannot be removed because nothing is found, it is not
taken. -/
theorem remove_not_found {folder : Folder} (names : Path.Names path absolute comps name)
    (reaches : fs.Reaches path absolute comps name folder) {cause : SystemError}
    (fails : fs.remove path = .error cause) (notFound : cause.isNotFound = true) :
    fs.child? folder.dir name = none := by
  unfold remove at fails
  rw [reaches.locate_name names] at fails
  cases child : fs.child? folder.dir name with
  | none => rfl
  | some id =>
      rw [child] at fails
      simp only [bind, Except.bind, refuse] at fails
      split at fails
      · cases fails
        cases notFound
      · cases fails

/-- A second name was given to what stands under the first, which is no directory. -/
theorem link_ok (sound : fs.Sound) (oldNames : Path.Names old absolute comps oldName)
    (newNames : Path.Names new absolute comps newName) (ok : fs.link old new = .ok after) :
    ∃ folder id, fs.Reaches old absolute comps oldName folder ∧
      fs.Reaches new absolute comps newName folder ∧
      fs.child? folder.dir oldName = some id ∧ fs.isDirectoryId id = false ∧
      fs.child? folder.dir newName = none ∧ after = fs.setEntry folder.dir newName id := by
  unfold link at ok
  obtain ⟨id, resolved, ok⟩ := bind_eq_ok ok
  obtain ⟨place, located, ok⟩ := bind_eq_ok ok
  obtain ⟨folder, newReaches, rfl⟩ := locate_name_ok sound newNames located
  obtain ⟨other, oldReaches, oldChild⟩ := resolve_name_ok sound oldNames resolved
  have same := newReaches.folder_eq oldReaches
  subst same
  cases newChild : fs.child? other.dir newName with
  | some taken =>
      rw [newChild] at ok
      cases ok
  | none =>
      rw [newChild] at ok
      dsimp only at ok
      split at ok
      · cases ok
      next notDir =>
        cases ok
        exact ⟨other, id, oldReaches, newReaches, oldChild, Bool.not_eq_true _ ▸ notDir, newChild,
          rfl⟩

/-- A file that was written is new, where the walk ended at a free name, or has the new content. -/
theorem write_ok (sound : fs.Sound) (names : Path.Names path absolute comps name)
    {content : ByteArray} (ok : fs.write path content = .ok after) :
    ∃ folder dir above spot, fs.Reaches path absolute comps name folder ∧
      ((fs.walkOn true folder [name] = .ok (.entry dir above spot none) ∧
          after = fs.addObject dir spot (.file content false)) ∨
        ∃ id executable, fs.walkOn true folder [name] = .ok (.entry dir above spot (some id)) ∧
          fs.shape? id = some .file ∧ after = fs.setObject id (.file content executable)) := by
  unfold write at ok
  rw [names.slash] at ok
  simp only [Bool.not_false, Bool.false_eq_true, if_false] at ok
  obtain ⟨place, located, ok⟩ := bind_eq_ok ok
  rw [← locate_eq_locateName names] at located
  obtain ⟨folder, reaches, ends⟩ := locate_ok sound names located
  cases place with
  | directory id above => cases ok
  | entry dir above spot target =>
      cases target with
      | none =>
          cases ok
          exact ⟨folder, dir, above, spot, reaches, Or.inl ⟨ends, rfl⟩⟩
      | some id =>
          dsimp only at ok
          split at ok
          next content' executable found =>
            cases ok
            have isFile : fs.shape? id = some .file := by simp [shape?, found, FileObject.shape]
            exact ⟨folder, dir, above, spot, reaches, Or.inr ⟨id, executable, ends, isFile, rfl⟩⟩
          next => cases ok

/-- A file was moved over another name. It stays where it is if both names stand for it; a directory
gives way to a directory only. -/
theorem rename_ok (sound : fs.Sound) (oldNames : Path.Names old absolute comps oldName)
    (newNames : Path.Names new absolute comps newName) (ok : fs.rename old new = .ok after) :
    ∃ folder id, fs.Reaches old absolute comps oldName folder ∧
      fs.Reaches new absolute comps newName folder ∧ fs.child? folder.dir oldName = some id ∧
      ((fs.child? folder.dir newName = some id ∧ after = fs) ∨
        (fs.child? folder.dir newName ≠ some id ∧
          (∀ taken, fs.child? folder.dir newName = some taken → fs.isDirectoryId taken = true →
            fs.isDirectoryId id = true) ∧
          after = (fs.setEntry folder.dir newName id).dropEntry folder.dir oldName)) := by
  unfold rename at ok
  obtain ⟨oldPlace, oldLocated, ok⟩ := bind_eq_ok ok
  obtain ⟨newPlace, newLocated, ok⟩ := bind_eq_ok ok
  obtain ⟨folder, oldReaches, rfl⟩ := locate_name_ok sound oldNames oldLocated
  obtain ⟨other, newReaches, rfl⟩ := locate_name_ok sound newNames newLocated
  have same := oldReaches.folder_eq newReaches
  subst same
  cases oldChild : fs.child? other.dir oldName with
  | none =>
      rw [oldChild] at ok
      cases ok
  | some id =>
      rw [oldChild] at ok
      dsimp only at ok
      refine ⟨other, id, oldReaches, newReaches, oldChild, ?_⟩
      by_cases sameFile : fs.child? other.dir newName = some id
      · rw [if_pos (by simp [sameFile])] at ok
        cases ok
        exact Or.inl ⟨sameFile, rfl⟩
      · rw [if_neg (by simp [sameFile])] at ok
        split at ok
        · cases ok
        next movable =>
          cases ok
          refine Or.inr ⟨sameFile, fun taken isTaken isDir => ?_, rfl⟩
          simpa [isTaken, isDir] using movable

/-- A directory was made under a free name, in the directory that the other components lead to. -/
theorem makeDirectory_ok (sound : fs.Sound) (ok : fs.makeDirectory path = .ok after) :
    ∃ before name folder, Path.components path = before ++ [name] ∧
      fs.home (Path.isAbsolute path) before = .ok folder ∧ Plain name ∧
      fs.child? folder.dir name = none ∧
      after = fs.addObject folder.dir name (.directory []) := by
  unfold makeDirectory at ok
  obtain ⟨place, located, ok⟩ := bind_eq_ok ok
  rw [locateName, walkSteps_eq] at located
  split at located
  · cases located
  have ends := mapError_eq_ok located
  rcases List.eq_nil_or_concat (Path.components path) with empty | ⟨before, name, split⟩
  · rw [empty] at ends
    have stays : fs.walkOn false (fs.start (Path.isAbsolute path)) [] =
        .ok (.directory (fs.start (Path.isAbsolute path)).dir
          (fs.start (Path.isAbsolute path)).above) := by
      rw [walkOn, walk_eq_roam]
      cases (fs.start (Path.isAbsolute path)).links <;> rfl
    rw [stays] at ends
    cases ends
    cases ok
  · rw [List.concat_eq_append] at split
    rw [split, walkOn_append] at ends
    cases home : fs.lead (fs.start (Path.isAbsolute path)) before with
    | error number =>
        rw [home] at ends
        cases ends
    | ok folder =>
        rw [home] at ends
        change fs.walkOn false folder [name] = .ok place at ends
        obtain ⟨isDir, _, _⟩ := lead_cases sound (start_within sound _) home
        by_cases moves : name = "." ∨ name = ".."
        · obtain ⟨dir, above, stays⟩ := walkOn_moves isDir moves
          rw [stays] at ends
          cases ends
          cases ok
        · rw [not_or] at moves
          have plain := plain_of_walkOn isDir moves.1 moves.2 ends
          rw [walkOn_plain_name isDir plain] at ends
          cases ends
          cases child : fs.child? folder.dir name with
          | some taken =>
              rw [child] at ok
              cases ok
          | none =>
              rw [child] at ok
              cases ok
              exact ⟨before, name, folder, split, home, plain, child, rfl⟩

end FileSystem

end NetplanEditor
