import NetplanEditor.Proofs.FileSystem.Calls

/-!
# What a reader finds

A reader follows links. What it finds under a name of a directory depends on the walk to the
directory, on the walk behind the name, and on the content of the file at its end (`found_congr`).
A file that is made where such a walk ended at a free name is what the walk ends at afterwards
(`walkOn_fill`).
-/

namespace NetplanEditor

/-- The object that a walk ends at. -/
def Place.target? : Place → Option ObjectId
  | .directory id _ => some id
  | .entry _ _ _ target => target

namespace FileSystem

variable {fs after : FileSystem} {follow absolute : Bool} {path name : String}
  {comps : List String} {folder : Folder}

/-! ## Reading by way of walks -/

theorem resolve_eq (path : String) :
    fs.resolve follow path =
      match fs.locate follow path with
      | .error cause => .error cause
      | .ok place =>
        match place.target? with
        | some id => .ok id
        | none => .error (.numbered .noEntry) := by
  unfold resolve
  cases fs.locate follow path with
  | error cause => rfl
  | ok place =>
      cases place with
      | directory id above => rfl
      | entry dir above name target => cases target <;> rfl

theorem read_eq (path : String) :
    fs.read path =
      match fs.resolve true path with
      | .error cause => .error cause
      | .ok id =>
        match fs.content? id with
        | some content => .ok content
        | none => refuse .isADirectory := by
  unfold read content?
  cases fs.resolve true path with
  | error cause => rfl
  | ok id =>
      simp only [bind, Except.bind]
      cases fs.object? id with
      | none => rfl
      | some object => cases object <;> rfl

/-- An object that is found stands where the walk ends. -/
theorem resolve_ok (sound : fs.Sound) (names : Path.Names path absolute comps name) {id : ObjectId}
    (ok : fs.resolve follow path = .ok id) :
    ∃ place folder, fs.Reaches path absolute comps name folder ∧
      fs.walkOn follow folder [name] = .ok place ∧ place.target? = some id := by
  rw [resolve_eq] at ok
  cases located : fs.locate follow path with
  | error cause =>
      rw [located] at ok
      cases ok
  | ok place =>
      obtain ⟨folder, reaches, ends⟩ := locate_ok sound names located
      rw [located] at ok
      cases target : place.target? with
      | none =>
          simp only [target] at ok
          cases ok
      | some other =>
          simp only [target] at ok
          cases ok
          exact ⟨place, folder, reaches, ends, target⟩

/-- Files are read the same where walks end the same and contents are the same. -/
theorem read_congr (located : after.locate true path = fs.locate true path)
    (contents : ∀ id, fs.resolve true path = .ok id → after.content? id = fs.content? id) :
    after.read path = fs.read path := by
  have resolved : after.resolve true path = fs.resolve true path := by
    rw [resolve_eq, resolve_eq, located]
  rw [read_eq, read_eq, resolved]
  cases found : fs.resolve true path with
  | error cause => rfl
  | ok id =>
      dsimp only
      rw [contents id found]

theorem isPresent_congr (located : after.locate true path = fs.locate true path) :
    after.isPresent path = fs.isPresent path := by
  rw [isPresent, isPresent, resolve_eq, resolve_eq, located]

/-- A file that can be read is present. -/
theorem isPresent_of_read {content : ByteArray} (reads : fs.read path = .ok content) :
    fs.isPresent path = true := by
  rw [read_eq] at reads
  unfold isPresent
  cases found : fs.resolve true path with
  | error cause =>
      rw [found] at reads
      cases reads
  | ok id => rfl

/-- Walks to a name end the same where those to its directory and behind the name do. -/
theorem locate_congr (names : Path.Names path absolute comps name)
    (home : after.home absolute comps = fs.home absolute comps)
    (walks : ∀ folder, fs.home absolute comps = .ok folder →
      after.walkOn follow folder [name] = fs.walkOn follow folder [name]) :
    after.locate follow path = fs.locate follow path := by
  rw [locate_eq_locateName names, locate_eq_locateName names, locateName_eq names,
    locateName_eq names, home]
  cases Path.refusal? path with
  | some cause => rfl
  | none =>
      cases reached : fs.home absolute comps with
      | error number => rfl
      | ok folder => exact congrArg (Except.mapError SystemError.numbered) (walks folder reached)

/-- Where no walk comes to the directory, nothing is there. -/
theorem isPresent_of_home_error (names : Path.Names path absolute comps name) {number : ErrorNumber}
    (home : fs.home absolute comps = .error number) : fs.isPresent path = false := by
  unfold isPresent
  rw [resolve_eq, locate_eq_locateName names, locateName_eq names, home]
  cases Path.refusal? path with
  | some cause => rfl
  | none => rfl

/-- Reading fails as the walk to the directory does. -/
theorem read_of_home_error (names : Path.Names path absolute comps name) {number : ErrorNumber}
    (home : fs.home absolute comps = .error number) :
    fs.read path = .error ((Path.refusal? path).getD (.numbered number)) := by
  rw [read_eq, resolve_eq, locate_eq_locateName names, locateName_eq names, home]
  cases Path.refusal? path with
  | some cause => rfl
  | none => rfl

/-- Under a free name nothing is there. -/
theorem isPresent_of_free (sound : fs.Sound) (names : Path.Names path absolute comps name)
    (home : fs.home absolute comps = .ok folder) (free : fs.child? folder.dir name = none) :
    fs.isPresent path = false := by
  unfold isPresent
  cases found : fs.resolve true path with
  | error cause => rfl
  | ok id =>
      obtain ⟨place, reached, reaches, ends, target⟩ := resolve_ok sound names found
      have same : reached = folder := Except.ok.inj (reaches.home.symm.trans home)
      subst same
      rw [walkOn_plain reaches.isDir reaches.plain, free] at ends
      cases ends
      cases target

theorem read_of_free (sound : fs.Sound) (names : Path.Names path absolute comps name)
    (home : fs.home absolute comps = .ok folder) (free : fs.child? folder.dir name = none)
    (short : name.utf8ByteSize ≤ maxName) :
    fs.read path = .error ((Path.refusal? path).getD (.numbered .noEntry)) := by
  have isDir := (lead_cases sound (start_within sound absolute) home).1
  have ends : fs.walkOn true folder [name] = .ok (.entry folder.dir folder.above name none) := by
    rw [walkOn_plain isDir ⟨names.dot, names.dots, short⟩, free]
  rw [read_eq, resolve_eq, locate_eq_locateName names, locateName_eq names, home]
  cases Path.refusal? path with
  | some cause => rfl
  | none =>
      simp only [goOn, ends]
      rfl

/-- What a reader finds under a name that it can come to. -/
theorem Reaches.read (reaches : fs.Reaches path absolute comps name folder)
    (names : Path.Names path absolute comps name) {place : Place} {id : ObjectId}
    {content : ByteArray} (ends : fs.walkOn true folder [name] = .ok place)
    (target : place.target? = some id) (holds : fs.content? id = some content) :
    fs.read path = .ok content := by
  have located : fs.locate true path = .ok place := by
    rw [reaches.locate names, ends]
    rfl
  rw [read_eq, resolve_eq, located]
  simp only [target, holds]

/-- A file that is read stands where the walk ends. -/
theorem Reaches.of_read (reaches : fs.Reaches path absolute comps name folder) (sound : fs.Sound)
    (names : Path.Names path absolute comps name) {content : ByteArray}
    (reads : fs.read path = .ok content) :
    ∃ place id, fs.walkOn true folder [name] = .ok place ∧ place.target? = some id ∧
      fs.content? id = some content := by
  rw [read_eq] at reads
  cases found : fs.resolve true path with
  | error cause =>
      rw [found] at reads
      cases reads
  | ok id =>
      obtain ⟨place, reached, reachesToo, ends, target⟩ := resolve_ok sound names found
      have same := reaches.folder_eq reachesToo
      subst same
      rw [found] at reads
      cases holds : fs.content? id with
      | none =>
          simp only [holds] at reads
          cases reads
      | some other =>
          simp only [holds] at reads
          cases reads
          exact ⟨place, id, ends, target, holds⟩

/-- What is copied was read. -/
theorem copy_ok {old new : String} (ok : fs.copy old new = .ok after) :
    ∃ content, fs.read old = .ok content ∧ fs.write new content = .ok after := by
  unfold copy at ok
  obtain ⟨id, found, ok⟩ := bind_eq_ok ok
  rw [read_eq, found]
  dsimp only
  split at ok
  next content executable isFile =>
    have holds : fs.content? id = some content := by
      rw [content?, isFile]
    rw [holds]
    exact ⟨content, rfl, ok⟩
  next => cases ok

/-! ## Names on the way of a walk -/

/-- A walk along one name looks at that name and at those behind a link under it. -/
theorem mem_visits_name (dot : name ≠ ".") (dots : name ≠ "..") {spot : Spot}
    (member : spot ∈ fs.visits true folder [name]) :
    spot = (folder.dir, name) ∨ spot ∈ fs.linked folder name := by
  cases isDir : fs.isDirectoryId folder.dir with
  | false =>
      have stops : fs.turn folder.dir folder.above name = .stop .notADirectory :=
        turn_of_not_directory isDir
      rw [visits] at member
      cases links : folder.links <;>
      · rw [links] at member
        simp [roam, roamWith, stops, looking] at member
  | true =>
      rcases Nat.lt_or_ge maxName name.utf8ByteSize with long | short
      · have stops : fs.turn folder.dir folder.above name = .stop .nameTooLong := by
          simp [turn, isDir, dot, dots, long]
        rw [visits] at member
        cases links : folder.links <;>
        · rw [links] at member
          simp [roam, roamWith, stops, looking] at member
      · rw [visits_plain isDir ⟨dot, dots, short⟩] at member
        exact List.mem_cons.mp member

/-! ## Names that walks end at -/

section Ends

variable {links : Nat} {dir last new : ObjectId} {above lastAbove : List ObjectId} {spot : String}
  {target : Option ObjectId}

/-- Where a walk has ended is old, and a name that it has ended at is one it has looked at. -/
def EndsAt (fs : FileSystem) (visited : List Spot) : Place → Prop
  | .directory id above => fs.Within id above
  | .entry dir _ name target =>
    fs.isDirectoryId dir = true ∧ fs.child? dir name = target ∧ (dir, name) ∈ visited

theorem EndsAt.later {visited : List Spot} {place : Place} (endsAt : fs.EndsAt visited place)
    (first : Spot) : fs.EndsAt (first :: visited) place := by
  cases place with
  | directory id above => exact endsAt
  | entry dir above name target =>
      exact ⟨endsAt.1, endsAt.2.1, List.mem_cons_of_mem _ endsAt.2.2⟩

theorem roamWith_ends (sound : fs.Sound)
    {jump : ObjectId → List ObjectId → List String → Except ErrorNumber Place}
    {jumpVisits : ObjectId → List ObjectId → List String → List Spot} {place : Place}
    (jumps : ∀ dir above comps, fs.Within dir above → jump dir above comps = .ok place →
      fs.EndsAt (jumpVisits dir above comps) place)
    (within : fs.Within dir above) (comps : List String)
    (ends : fs.roamWith ending follow links jump dir above comps = .ok place) :
    fs.EndsAt (fs.roamWith looking follow links jumpVisits dir above comps) place := by
  induction comps generalizing dir above with
  | nil =>
      cases ends
      exact within
  | cons name rest ih =>
      have spec : fs.TurnSpec dir name (fs.turn dir above name) := turn_spec sound within
      rw [roamWith] at ends ⊢
      cases turned : fs.turn dir above name with
      | stop number =>
          rw [turned] at ends
          cases ends
      | move dir' above' =>
          rw [turned] at ends spec
          exact ih spec ends
      | free =>
          obtain ⟨isDir, _, child⟩ := turn_free turned
          rw [turned] at ends
          cases empty : rest.isEmpty with
          | true =>
              rw [empty] at ends
              cases ends
              exact ⟨isDir, child, List.mem_cons_self⟩
          | false =>
              rw [empty] at ends
              cases ends
      | object id =>
          rw [turned] at ends spec
          cases empty : rest.isEmpty with
          | true =>
              rw [empty] at ends
              cases ends
              exact ⟨isDirectoryId_of_child? spec.1, spec.1, List.mem_cons_self⟩
          | false =>
              rw [empty] at ends
              have inside : fs.Within id (dir :: above) :=
                ⟨spec.2, List.forall_mem_cons.mpr ⟨within.dir, within.above⟩⟩
              exact (ih inside ends).later _
      | link id start higher comps =>
          rw [turned] at ends spec
          cases stops : rest.isEmpty && !follow with
          | true =>
              rw [stops] at ends
              cases ends
              exact ⟨isDirectoryId_of_child? spec.1, spec.1, List.mem_cons_self⟩
          | false =>
              rw [stops] at ends
              exact (jumps start higher _ spec.2.2 ends).later _

theorem walkOn_ends (sound : fs.Sound) (within : fs.Within folder.dir folder.above)
    {comps : List String} {place : Place} (ends : fs.walkOn follow folder comps = .ok place) :
    fs.EndsAt (fs.visits follow folder comps) place := by
  rcases folder with ⟨links, dir, above⟩
  rw [walkOn, walk_eq_roam] at ends
  unfold visits
  dsimp only at within ends ⊢
  induction links generalizing dir above comps with
  | zero => exact roamWith_ends sound (fun _ _ _ _ ends => by cases ends) within comps ends
  | succ links ih =>
      exact roamWith_ends sound (fun dir above comps inside => ih dir above inside) within comps ends

/-- The object that a walk ends at is old. -/
theorem EndsAt.target_lt (sound : fs.Sound) {visited : List Spot} {place : Place}
    (endsAt : fs.EndsAt visited place) {id : ObjectId} (target : place.target? = some id) :
    id < fs.next := by
  cases place with
  | directory other above =>
      cases target
      exact endsAt.dir
  | entry dir above name other =>
      cases target
      exact sound.child dir name id endsAt.2.1

/-- What a change does that makes a file under a free name and changes no other name. -/
structure Fills (fs after : FileSystem) (last : ObjectId) (spot : String) (new : ObjectId) :
    Prop where
  isDir : fs.isDirectoryId last = true
  free : fs.child? last spot = none
  taken : after.child? last spot = some new
  file : after.shape? new = some .file
  others : ∀ other, other ≠ (last, spot) → SameChild fs after other

theorem Fills.same (fills : Fills fs after last spot new) {name : String}
    (taken : fs.child? dir name ≠ none) : SameChild fs after (dir, name) :=
  fills.others _ fun same => by
    cases same
    exact taken fills.free

theorem roamWith_fill (sound : fs.Sound) (kept : Kept fs after) (fills : Fills fs after last spot new)
    {jump jump' : ObjectId → List ObjectId → List String → Except ErrorNumber Place}
    {jumpVisits jumpVisits' : ObjectId → List ObjectId → List String → List Spot}
    (jumps : ∀ dir above comps, fs.Within dir above →
      jump dir above comps = .ok (.entry last lastAbove spot none) →
      jump' dir above comps = .ok (.entry last lastAbove spot (some new)) ∧
        jumpVisits' dir above comps = jumpVisits dir above comps)
    (within : fs.Within dir above) (comps : List String)
    (ends : fs.roamWith ending follow links jump dir above comps =
      .ok (.entry last lastAbove spot none)) :
    after.roamWith ending follow links jump' dir above comps =
        .ok (.entry last lastAbove spot (some new)) ∧
      after.roamWith looking follow links jumpVisits' dir above comps =
        fs.roamWith looking follow links jumpVisits dir above comps := by
  induction comps generalizing dir above with
  | nil => cases ends
  | cons name rest ih =>
      have spec : fs.TurnSpec dir name (fs.turn dir above name) := turn_spec sound within
      rw [roamWith] at ends
      rw [roamWith, roamWith, roamWith]
      -- Of the names looked at only the last is free, and it is the only one that changes.
      have turns (taken : fs.turn dir above name ≠ .free) :
          after.turn dir above name = fs.turn dir above name := by
        refine turn_congr sound kept within.dir fun noStop noMove => fills.same ?_
        cases turned : fs.turn dir above name with
        | stop number => exact (noStop number turned).elim
        | move dir' above' => exact (noMove dir' above' turned).elim
        | free => exact (taken turned).elim
        | object id =>
            rw [turned] at spec
            simp [spec.1]
        | link id start higher comps =>
            rw [turned] at spec
            simp [spec.1]
      cases turned : fs.turn dir above name with
      | stop number =>
          rw [turned] at ends
          cases ends
      | move dir' above' =>
          rw [turns (by simp [turned]), turned]
          rw [turned] at ends spec
          exact ih spec ends
      | free =>
          obtain ⟨isDir, plain, child⟩ := turn_free turned
          rw [turned] at ends
          cases empty : rest.isEmpty with
          | false =>
              rw [empty] at ends
              cases ends
          | true =>
              rw [empty] at ends
              cases ends
              have isDirAfter : after.isDirectoryId dir = true :=
                (isDirectoryId_congr (kept.shape dir within.dir)).trans isDir
              have turnedAfter : after.turn dir above spot = .object new := by
                rw [turn_plain isDirAfter plain, look, fills.taken]
                dsimp only
                rw [fills.file]
              rw [turnedAfter]
              exact ⟨rfl, rfl⟩
      | object id =>
          rw [turns (by simp [turned]), turned]
          rw [turned] at ends spec
          cases empty : rest.isEmpty with
          | true =>
              rw [empty] at ends
              cases ends
          | false =>
              rw [empty] at ends
              have inside : fs.Within id (dir :: above) :=
                ⟨spec.2, List.forall_mem_cons.mpr ⟨within.dir, within.above⟩⟩
              obtain ⟨endsAfter, visited⟩ := ih inside ends
              refine ⟨endsAfter, ?_⟩
              simp only [looking_taken, Bool.false_eq_true, if_false, visited]
      | link id start higher comps =>
          rw [turns (by simp [turned]), turned]
          rw [turned] at ends spec
          cases stops : rest.isEmpty && !follow with
          | true =>
              rw [stops] at ends
              cases ends
          | false =>
              rw [stops] at ends
              obtain ⟨endsAfter, visited⟩ := jumps start higher _ spec.2.2 ends
              refine ⟨endsAfter, ?_⟩
              simp only [looking_taken, Bool.false_eq_true, if_false, visited]

/-- Where a walk ended at a free name, it ends at a file that was made there, and looks at the same
names. -/
theorem walkOn_fill (sound : fs.Sound) (kept : Kept fs after) (fills : Fills fs after last spot new)
    (within : fs.Within folder.dir folder.above) {comps : List String}
    (ends : fs.walkOn follow folder comps = .ok (.entry last lastAbove spot none)) :
    after.walkOn follow folder comps = .ok (.entry last lastAbove spot (some new)) ∧
      after.visits follow folder comps = fs.visits follow folder comps := by
  rcases folder with ⟨links, dir, above⟩
  rw [walkOn, walk_eq_roam] at ends ⊢
  unfold visits
  dsimp only at within ends ⊢
  induction links generalizing dir above comps with
  | zero => exact roamWith_fill sound kept fills (fun _ _ _ _ ends => by cases ends) within comps ends
  | succ links ih =>
      exact roamWith_fill sound kept fills (fun dir above comps inside => ih dir above inside) within
        comps ends

end Ends

end FileSystem

end NetplanEditor
