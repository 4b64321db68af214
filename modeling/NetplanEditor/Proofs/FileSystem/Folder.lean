import NetplanEditor.Proofs.FileSystem.Walk

/-!
# Walks by way of a directory

The names in one directory share the walk to the directory. A walk along components goes where all
but the last of them lead, and from there looks at the last one (`walkOn_append`, `roam_plain`); what
a link under that name leads to is `beyond` it. The way to a directory goes through names that are
taken, each by a directory or by a link (`lead_cases`).
-/

namespace NetplanEditor

/-- A reading that makes of a walk what it makes of its end, and fails where the walk does. -/
structure Reading.Forwards {α : Type} (reading : Reading (Except ErrorNumber α)) : Prop where
  stop : ∀ number, reading.stop number = .error number
  free : ∀ folder name, reading.free folder name false = .error .noEntry
  taken : ∀ folder name id rest, reading.taken folder name id (some rest) = rest

namespace FileSystem

variable {fs after : FileSystem} {follow : Bool} {links : Nat} {dir : ObjectId}
  {above : List ObjectId} {name : String}

/-! ## Walks in parts -/

/-- What is made of a walk behind its first components, once it is known where they lead. -/
def goOn {α : Type} (reached : Except ErrorNumber Folder) (next : Folder → Except ErrorNumber α) :
    Except ErrorNumber α :=
  match reached with
  | .error number => .error number
  | .ok folder => next folder

theorem ending_forwards : ending.Forwards := ⟨fun _ => rfl, fun _ _ => rfl, fun _ _ _ _ => rfl⟩

theorem leading_forwards : leading.Forwards := ⟨fun _ => rfl, fun _ _ => rfl, fun _ _ _ _ => rfl⟩

theorem turn_of_not_directory (notDir : fs.isDirectoryId dir = false) :
    fs.turn dir above name = .stop .notADirectory := by
  simp [turn, notDir]

theorem turn_dot (isDir : fs.isDirectoryId dir = true) :
    fs.turn dir above "." = .move dir above := by
  simp [turn, isDir]

theorem roamWith_append {α : Type} {reading : Reading (Except ErrorNumber α)}
    {jump : ObjectId → List ObjectId → List String → Except ErrorNumber α}
    {jumpLead : ObjectId → List ObjectId → List String → Except ErrorNumber Folder}
    {next : Folder → Except ErrorNumber α} {behind : List String} (forwards : reading.Forwards)
    (jumps : ∀ dir above comps, jump dir above (comps ++ name :: behind) =
      goOn (jumpLead dir above (comps ++ ["."])) next)
    (here : ∀ dir above, fs.roamWith reading follow links jump dir above (name :: behind) =
      next ⟨links, dir, above⟩)
    (dir : ObjectId) (above : List ObjectId) (before : List String) :
    fs.roamWith reading follow links jump dir above (before ++ name :: behind) =
      goOn (fs.roamWith leading true links jumpLead dir above (before ++ ["."])) next := by
  induction before generalizing dir above with
  | nil =>
      cases isDir : fs.isDirectoryId dir with
      | true =>
          rw [List.nil_append, List.nil_append, here, roamWith, turn_dot isDir]
          rfl
      | false =>
          rw [List.nil_append, List.nil_append, roamWith, roamWith, turn_of_not_directory isDir,
            turn_of_not_directory isDir]
          exact forwards.stop _
  | cons first rest ih =>
      have notLast : (rest ++ name :: behind).isEmpty = false := by simp
      have notLastLead : (rest ++ ["."]).isEmpty = false := by simp
      rw [List.cons_append, List.cons_append, roamWith, roamWith]
      cases fs.turn dir above first with
      | stop number => exact forwards.stop number
      | move dir above => exact ih dir above
      | free =>
          rw [notLast]
          exact forwards.free _ _
      | object id =>
          simp only [notLast, notLastLead, Bool.false_eq_true, if_false, forwards.taken,
            leading_forwards.taken]
          exact ih id (dir :: above)
      | link id start higher comps =>
          simp only [notLast, notLastLead, Bool.false_and, Bool.false_eq_true, if_false,
            forwards.taken, leading_forwards.taken, ← List.append_assoc]
          exact jumps start higher (comps ++ rest)

/-- A walk first goes where its first components lead and then on along the others. -/
theorem roam_append {α : Type} {reading : Reading (Except ErrorNumber α)}
    (forwards : reading.Forwards) (folder : Folder) (before : List String) (name : String)
    (behind : List String) :
    fs.roam reading follow folder.links folder.dir folder.above (before ++ name :: behind) =
      goOn (fs.lead folder before) fun reached =>
        fs.roam reading follow reached.links reached.dir reached.above (name :: behind) := by
  rcases folder with ⟨links, dir, above⟩
  unfold lead
  dsimp only
  induction links generalizing dir above before with
  | zero =>
      refine roamWith_append forwards (fun _ _ _ => ?_) (fun _ _ => rfl) dir above before
      exact forwards.stop _
  | succ links ih =>
      exact roamWith_append forwards (fun dir above comps => ih comps dir above) (fun _ _ => rfl)
        dir above before

theorem walkOn_append (folder : Folder) (before : List String) (name : String)
    (behind : List String) :
    fs.walkOn follow folder (before ++ name :: behind) =
      goOn (fs.lead folder before) fun reached => fs.walkOn follow reached (name :: behind) := by
  simp only [walkOn, walk_eq_roam]
  exact roam_append ending_forwards folder before name behind

theorem lead_append (folder : Folder) (before : List String) (name : String)
    (behind : List String) :
    fs.lead folder (before ++ name :: behind) =
      goOn (fs.lead folder before) fun reached => fs.lead reached (name :: behind) := by
  rw [lead, List.append_assoc]
  exact roam_append leading_forwards folder before name (behind ++ ["."])

/-! ## The way to a directory -/

/-- The name stands for a directory, or for a link. -/
def Passable (fs : FileSystem) (spot : Spot) : Prop :=
  ∃ id, fs.child? spot.1 spot.2 = some id ∧
    (fs.isDirectoryId id = true ∨ ∃ target, fs.shape? id = some (.symlink target))

theorem isDirectoryId_of_roamWith {jump : ObjectId → List ObjectId → List String →
      Except ErrorNumber Folder} {reached : Folder} {comps : List String}
    (leads : fs.roamWith leading true links jump dir above (comps ++ ["."]) = .ok reached) :
    fs.isDirectoryId dir = true := by
  cases isDir : fs.isDirectoryId dir with
  | true => rfl
  | false =>
      cases comps <;>
      · simp only [List.nil_append, List.cons_append, roamWith, turn_of_not_directory isDir] at leads
        cases leads

theorem roamWith_lead_cases
    {jump : ObjectId → List ObjectId → List String → Except ErrorNumber Folder}
    {jumpVisits : ObjectId → List ObjectId → List String → List Spot} {reached : Folder}
    (sound : fs.Sound)
    (jumps : ∀ dir above comps, fs.Within dir above → jump dir above (comps ++ ["."]) = .ok reached →
      fs.isDirectoryId reached.dir = true ∧ fs.Within reached.dir reached.above ∧
        ∀ spot ∈ jumpVisits dir above (comps ++ ["."]), fs.Passable spot)
    (within : fs.Within dir above) (comps : List String)
    (leads : fs.roamWith leading true links jump dir above (comps ++ ["."]) = .ok reached) :
    fs.isDirectoryId reached.dir = true ∧ fs.Within reached.dir reached.above ∧
      ∀ spot ∈ fs.roamWith looking true links jumpVisits dir above (comps ++ ["."]),
        fs.Passable spot := by
  induction comps generalizing dir above with
  | nil =>
      have isDir := isDirectoryId_of_roamWith leads
      rw [List.nil_append, roamWith, turn_dot isDir] at leads ⊢
      cases leads
      exact ⟨isDir, within, fun _ member => (List.not_mem_nil member).elim⟩
  | cons first rest ih =>
      have notLast : (rest ++ ["."]).isEmpty = false := by simp
      have spec : fs.TurnSpec dir first (fs.turn dir above first) := turn_spec sound within
      rw [List.cons_append, roamWith] at leads ⊢
      cases turned : fs.turn dir above first with
      | stop number =>
          rw [turned] at leads
          cases leads
      | move dir' above' =>
          rw [turned] at leads spec
          exact ih spec leads
      | free =>
          rw [turned] at leads
          cases leads
      | object id =>
          rw [turned] at leads spec
          simp only [notLast, Bool.false_eq_true, if_false, leading_forwards.taken] at leads ⊢
          have inside : fs.Within id (dir :: above) :=
            ⟨spec.2, List.forall_mem_cons.mpr ⟨within.dir, within.above⟩⟩
          obtain ⟨isDir, reachedWithin, passable⟩ := ih inside leads
          refine ⟨isDir, reachedWithin, List.forall_mem_cons.mpr ⟨?_, passable⟩⟩
          exact ⟨id, spec.1, Or.inl (isDirectoryId_of_roamWith leads)⟩
      | link id start higher comps =>
          rw [turned] at leads spec
          simp only [notLast, Bool.not_true, Bool.and_false, Bool.false_eq_true, if_false,
            leading_forwards.taken, ← List.append_assoc] at leads ⊢
          obtain ⟨isDir, reachedWithin, passable⟩ := jumps start higher _ spec.2.2 leads
          refine ⟨isDir, reachedWithin, List.forall_mem_cons.mpr ⟨?_, passable⟩⟩
          exact ⟨id, spec.1, Or.inr spec.2.1⟩

/-- The way to a directory ends at one, and all names on it stand for directories or links. -/
theorem lead_cases {folder reached : Folder} {comps : List String} (sound : fs.Sound)
    (within : fs.Within folder.dir folder.above) (leads : fs.lead folder comps = .ok reached) :
    fs.isDirectoryId reached.dir = true ∧ fs.Within reached.dir reached.above ∧
      ∀ spot ∈ fs.way folder comps, fs.Passable spot := by
  rcases folder with ⟨links, dir, above⟩
  unfold way visits
  unfold lead at leads
  dsimp only at within leads ⊢
  induction links generalizing dir above comps with
  | zero => exact roamWith_lead_cases sound (fun _ _ _ _ leads => by cases leads) within comps leads
  | succ links ih =>
      exact roamWith_lead_cases sound (fun dir above comps inside => ih dir above inside) within
        comps leads

section Lead

variable {folder : Folder} {comps : List String}

theorem lead_nil (isDir : fs.isDirectoryId folder.dir = true) : fs.lead folder [] = .ok folder := by
  rcases folder with ⟨links, dir, above⟩
  cases links <;> simp [lead, roam, roamWith, turn_dot isDir, leading]

theorem lead_stop {number : ErrorNumber}
    (turned : fs.turn folder.dir folder.above name = .stop number) :
    fs.lead folder (name :: comps) = .error number := by
  rcases folder with ⟨links, dir, above⟩
  cases links <;> simp [lead, roam, roamWith, turned, leading]

theorem lead_move {dir' : ObjectId} {above' : List ObjectId}
    (turned : fs.turn folder.dir folder.above name = .move dir' above') :
    fs.lead folder (name :: comps) = fs.lead ⟨folder.links, dir', above'⟩ comps := by
  rcases folder with ⟨links, dir, above⟩
  cases links <;> simp [lead, roam, roamWith, turned]

theorem lead_free (turned : fs.turn folder.dir folder.above name = .free) :
    fs.lead folder (name :: comps) = .error .noEntry := by
  rcases folder with ⟨links, dir, above⟩
  cases links <;> simp [lead, roam, roamWith, turned, leading]

theorem lead_object {id : ObjectId} (turned : fs.turn folder.dir folder.above name = .object id) :
    fs.lead folder (name :: comps) =
      fs.lead ⟨folder.links, id, folder.dir :: folder.above⟩ comps := by
  rcases folder with ⟨links, dir, above⟩
  cases links <;> simp [lead, roam, roamWith, turned, leading]

/-- In an empty directory a walk stays where it is or fails. -/
theorem lead_blank (isDir : fs.isDirectoryId folder.dir = true)
    (blank : ∀ name, fs.child? folder.dir name = none) (noDots : ".." ∉ comps) :
    fs.lead folder comps = .ok folder ∨ fs.lead folder comps = .error .noEntry ∨
      fs.lead folder comps = .error .nameTooLong ∧
        ∃ comp ∈ comps, maxName < comp.utf8ByteSize := by
  induction comps with
  | nil => exact Or.inl (lead_nil isDir)
  | cons comp rest ih =>
      rw [List.mem_cons, not_or] at noDots
      by_cases dot : comp = "."
      · subst dot
        rw [lead_move (turn_dot isDir)]
        rcases ih noDots.2 with stays | missing | ⟨tooLong, long, member, size⟩
        · exact Or.inl stays
        · exact Or.inr (Or.inl missing)
        · exact Or.inr (Or.inr ⟨tooLong, long, List.mem_cons_of_mem _ member, size⟩)
      have dots : comp ≠ ".." := Ne.symm noDots.1
      by_cases long : maxName < comp.utf8ByteSize
      · have stops : fs.turn folder.dir folder.above comp = .stop .nameTooLong := by
          simp [turn, isDir, dot, dots, long]
        exact Or.inr (Or.inr ⟨lead_stop stops, comp, List.mem_cons_self, long⟩)
      · have isFree : fs.turn folder.dir folder.above comp = .free := by
          simp [turn, isDir, dot, dots, long, look, blank]
        exact Or.inr (Or.inl (lead_free isFree))

end Lead

/-! ## The names of one directory -/

/-- What is made of a walk behind a link among the names of a directory; nothing behind what is no
link. -/
def beyondWith {α : Type} (fs : FileSystem)
    (jump : ObjectId → List ObjectId → List String → α) (dir : ObjectId) (above : List ObjectId)
    (id : ObjectId) : Option α :=
  match fs.shape? id with
  | some (.symlink target) =>
    some <|
      if Path.isAbsolute target then jump fs.root [] (Path.components target)
      else jump dir above (Path.components target)
  | _ => none

/-- What is made of a walk behind a link under a name of the directory that it has come to. -/
def beyond {α : Type} (fs : FileSystem) (reading : Reading α) (folder : Folder) (id : ObjectId) :
    Option α :=
  match folder with
  | ⟨0, dir, above⟩ => fs.beyondWith (fun _ _ _ => reading.stop .tooManyLinks) dir above id
  | ⟨links + 1, dir, above⟩ => fs.beyondWith (fs.roam reading true links) dir above id

/-- A name that does not move a walk by itself. -/
structure Plain (name : String) : Prop where
  dot : name ≠ "."
  dots : name ≠ ".."
  short : name.utf8ByteSize ≤ maxName

theorem turn_plain (isDir : fs.isDirectoryId dir = true) (plain : Plain name) :
    fs.turn dir above name = fs.look dir above name := by
  have short : ¬ name.utf8ByteSize > maxName := Nat.not_lt.mpr plain.short
  simp only [turn, isDir, beq_eq_false_iff_ne.mpr plain.dot, beq_eq_false_iff_ne.mpr plain.dots,
    short, Bool.not_true, Bool.false_eq_true, if_false]

/-- A turn that looks at a free name is one in a directory, and the name is none that moves. -/
theorem turn_free (turned : fs.turn dir above name = .free) :
    fs.isDirectoryId dir = true ∧ Plain name ∧ fs.child? dir name = none := by
  unfold turn at turned
  split at turned
  · cases turned
  next isDir =>
    split at turned
    · cases turned
    next dot =>
      split at turned
      · split at turned <;> cases turned
      next dots =>
        split at turned
        · cases turned
        next short =>
          refine ⟨by simpa using isDir, ⟨by simpa using dot, by simpa using dots,
            Nat.not_lt.mp short⟩, ?_⟩
          unfold look at turned
          split at turned
          next free => exact free
          next =>
            split at turned
            · split at turned <;> cases turned
            · cases turned

theorem roamWith_plain {α : Type} {reading : Reading α}
    {jump : ObjectId → List ObjectId → List String → α} (isDir : fs.isDirectoryId dir = true)
    (plain : Plain name) :
    fs.roamWith reading follow links jump dir above [name] =
      match fs.child? dir name with
      | none => reading.free ⟨links, dir, above⟩ name true
      | some id =>
        reading.taken ⟨links, dir, above⟩ name id
          (if follow then fs.beyondWith jump dir above id else none) := by
  rw [roamWith, turn_plain isDir plain, look]
  cases fs.child? dir name with
  | none => rfl
  | some id =>
      dsimp only [beyondWith]
      cases fs.shape? id with
      | none => cases follow <;> rfl
      | some shape =>
          cases shape with
          | file => cases follow <;> rfl
          | directory => cases follow <;> rfl
          | symlink target =>
              by_cases absolute : Path.isAbsolute target = true <;> cases follow <;>
                simp [absolute]

/-- A walk along one name looks at it and goes on behind it if it is a link to be followed. -/
theorem roam_plain {α : Type} (reading : Reading α) {folder : Folder}
    (isDir : fs.isDirectoryId folder.dir = true) (plain : Plain name) :
    fs.roam reading follow folder.links folder.dir folder.above [name] =
      match fs.child? folder.dir name with
      | none => reading.free folder name true
      | some id =>
        reading.taken folder name id (if follow then fs.beyond reading folder id else none) := by
  rcases folder with ⟨links, dir, above⟩
  cases links with
  | zero => exact roamWith_plain isDir plain
  | succ links =>
      rw [roam, roamWith_plain isDir plain]
      cases follow with
      | true => rfl
      | false => rfl

/-- A walk that does not follow a link under the name ends at the name. -/
theorem walkOn_plain_name {folder : Folder} (isDir : fs.isDirectoryId folder.dir = true)
    (plain : Plain name) :
    fs.walkOn false folder [name] =
      .ok (.entry folder.dir folder.above name (fs.child? folder.dir name)) := by
  rw [walkOn, walk_eq_roam, roam_plain ending isDir plain]
  cases fs.child? folder.dir name with
  | none => rfl
  | some id => rfl

/-- A walk that follows a link under the name ends behind it. -/
theorem walkOn_plain {folder : Folder} (isDir : fs.isDirectoryId folder.dir = true)
    (plain : Plain name) :
    fs.walkOn true folder [name] =
      match fs.child? folder.dir name with
      | none => .ok (.entry folder.dir folder.above name none)
      | some id =>
        (fs.beyond ending folder id).getD
          (.ok (.entry folder.dir folder.above name (some id))) := by
  rw [walkOn, walk_eq_roam, roam_plain ending isDir plain]
  cases fs.child? folder.dir name with
  | none => rfl
  | some id => rfl

/-- The names that are looked at behind a link under a name of the directory. -/
def linked (fs : FileSystem) (folder : Folder) (name : String) : List Spot :=
  match fs.child? folder.dir name with
  | none => []
  | some id => (fs.beyond looking folder id).getD []

theorem visits_plain {folder : Folder} (isDir : fs.isDirectoryId folder.dir = true)
    (plain : Plain name) :
    fs.visits true folder [name] = (folder.dir, name) :: fs.linked folder name := by
  rw [visits, roam_plain looking isDir plain, linked]
  cases fs.child? folder.dir name with
  | none => rfl
  | some id => rfl

theorem beyond_of_not_link {α : Type} {reading : Reading α} {folder : Folder} {id : ObjectId}
    (notLink : ∀ target, fs.shape? id ≠ some (.symlink target)) :
    fs.beyond reading folder id = none := by
  have none : ∀ {jump : ObjectId → List ObjectId → List String → α} {dir above},
      fs.beyondWith jump dir above id = none := by
    intro jump dir above
    unfold beyondWith
    split
    next target isLink => exact (notLink target isLink).elim
    next => rfl
  unfold beyond
  split <;> exact none

theorem beyond_of_directory {α : Type} {reading : Reading α} {folder : Folder} {id : ObjectId}
    (isDir : fs.isDirectoryId id = true) : fs.beyond reading folder id = none := by
  refine beyond_of_not_link fun target isLink => ?_
  rw [isDirectoryId_iff.mp isDir] at isLink
  cases isLink

/-- What stands behind a link stays when the names stay that are looked at behind it. -/
theorem beyond_congr {α : Type} (reading : Reading α) (sound : fs.Sound) (kept : Kept fs after)
    {folder : Folder} (within : fs.Within folder.dir folder.above) {id : ObjectId}
    (below : id < fs.next)
    (same : ∀ spot ∈ (fs.beyond looking folder id).getD [], SameChild fs after spot) :
    after.beyond reading folder id = fs.beyond reading folder id := by
  rcases folder with ⟨links, dir, above⟩
  cases links with
  | zero =>
      simp only [beyond, beyondWith]
      rw [kept.shape id below]
  | succ links =>
      simp only [beyond, beyondWith] at same ⊢
      rw [kept.shape id below, kept.root]
      split
      next target isLink =>
        simp only [isLink, Option.getD_some] at same
        have root : fs.Within fs.root [] :=
          ⟨sound.root, fun _ member => (List.not_mem_nil member).elim⟩
        by_cases absolute : Path.isAbsolute target = true
        · simp only [absolute, if_true] at same ⊢
          have later := roam_congr reading sound kept ⟨links, fs.root, []⟩ root same
          exact congrArg some later
        · simp only [absolute, Bool.false_eq_true, if_false] at same ⊢
          have later := roam_congr reading sound kept ⟨links, dir, above⟩ within same
          exact congrArg some later
      next => rfl

end FileSystem

end NetplanEditor
