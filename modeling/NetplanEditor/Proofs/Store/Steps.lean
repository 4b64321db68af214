import NetplanEditor.Proofs.Store.Apart

/-!
# What the calls of a save change

A save makes missing directories, writes the temporary file, removes the old backup, links or copies
the document to the backup, and renames the temporary file. For each of these calls this file says
that files which are ready for saving still are afterwards, that the call spares the other names of
the directory, and what it leaves under its own name. From the temporary file's completion to the
renaming the files are `Staged`.
-/

namespace NetplanEditor

namespace FileSystem

open FileStore (Part)

variable {fs after : FileSystem} {front path name : String} {folder : Folder} {spot : Spot}
  {content old text : ByteArray}

/-- The name is not the temporary one. -/
def Lasting (front name : String) : Prop := name ≠ Part.temporary.name front

/-! ## Making directories -/

/-- Of the names in an empty directory only the temporary one is in its own way. -/
theorem Clear.of_blank (isDir : fs.isDirectoryId folder.dir = true)
    (blank : ∀ name, fs.child? folder.dir name = none) (lasting : Lasting front name) :
    fs.Clear front folder name := by
  have unlinked (name : String) : fs.linked folder name = [] := by
    rw [linked, blank]
  have names := Part.temporary.names front
  have atName {place : Place}
      (ends : fs.walkOn true folder [Part.temporary.name front] = .ok place) :
      place = .entry folder.dir folder.above (Part.temporary.name front) none := by
    have plain := plain_of_walkOn isDir names.dot names.dots ends
    rw [walkOn_plain isDir plain, blank] at ends
    exact (Except.ok.inj ends).symm
  refine ⟨fun part member => ?_, fun dir above spot ends => ?_, fun mine others id _ ends _ => ?_⟩
  · rw [unlinked] at member
    exact (List.not_mem_nil member).elim
  · cases atName ends
    rw [unlinked]
    refine ⟨fun same => ?_, List.not_mem_nil⟩
    exact lasting (Prod.mk.inj same).2.symm
  · rw [atName ends]
    exact fun same => by cases same

theorem empty_directory : ∀ entries, FileObject.directory [] = .directory entries → entries = [] :=
  fun _ same => (FileObject.directory.inj same).symm

/-- A new directory has no names in it. -/
theorem child?_newDirectory (sound : fs.Sound) {dir : ObjectId} {made : String}
    (isDir : fs.isDirectoryId dir = true) (name : String) :
    (fs.addObject dir made (.directory [])).child? fs.next name = none := by
  have apart : fs.next ≠ dir := Nat.ne_of_gt (sound.lt_of_isDirectoryId isDir)
  rw [child?_addObject sound empty_directory, if_neg fun isNew => apart isNew.1]
  cases taken : fs.child? fs.next name with
  | none => rfl
  | some id =>
      have below := sound.lt_of_isDirectoryId (isDirectoryId_of_child? taken)
      exact absurd below (Nat.lt_irrefl _)

/-- Making a directory keeps files tidy: it is no link, and under its number is no other name. -/
theorem Tidy.newDirectory (tidy : fs.Tidy) (sound : fs.Sound) {dir : ObjectId} {made : String}
    (isDir : fs.isDirectoryId dir = true) : (fs.addObject dir made (.directory [])).Tidy := by
  refine ⟨fun id target isLink => ?_, fun inside front name id temporary taken => ?_⟩
  · rcases Nat.lt_or_ge id fs.next with below | above
    · rw [(kept_addObject sound isDir).shape id below] at isLink
      exact tidy.flat id target isLink
    · rcases shape?_addObject_of_le sound empty_directory isDir above with none | isDirectory
      · rw [none] at isLink
        cases isLink
      · rw [isDirectory] at isLink
        cases isLink
  · rw [child?_addObject sound empty_directory] at temporary taken
    split at temporary
    next isNew =>
      cases temporary
      split at taken
      next isNewToo => rw [isNew.2, isNewToo.2]
      next => exact absurd (sound.child _ _ _ taken) (Nat.lt_irrefl _)
    next =>
      split at taken
      next =>
        cases taken
        exact absurd (sound.child _ _ _ temporary) (Nat.lt_irrefl _)
      next => exact tidy.single inside front name id temporary taken

/-- A directory is only made on a way that ended where it was missing. The way goes on in it, and
finds nothing there. -/
theorem Ready.makeDirectory_home (ready : fs.Ready front)
    (absolute : Path.isAbsolute path = Path.isAbsolute front) {rest : List String}
    (split : Path.folderOf front = Path.components path ++ rest)
    (ok : fs.makeDirectory path = .ok after) :
    fs.homeOf front = .error .noEntry ∧ after.Sound ∧ (fs.Tidy → after.Tidy) ∧
      ((∃ folder, after.homeOf front = .ok folder ∧ ∀ name, after.child? folder.dir name = none) ∨
        after.homeOf front = .error .noEntry ∨
        after.homeOf front = .error .nameTooLong ∧
          ∃ comp ∈ Path.folderOf front, maxName < comp.utf8ByteSize) := by
  have sound := ready.sound
  obtain ⟨before, made, folder, comps, home, plain, free, rfl⟩ := makeDirectory_ok sound ok
  rw [absolute] at home
  rw [comps, List.append_assoc, List.singleton_append] at split
  obtain ⟨isDir, within, passable⟩ := lead_cases sound (start_within sound _) home
  have homeIs (fs : FileSystem) : fs.homeOf front =
      goOn (fs.home (Path.isAbsolute front) before) fun reached => fs.lead reached (made :: rest) := by
    rw [homeOf, FileSystem.home, split, lead_append]
    rfl
  have missing : fs.homeOf front = .error .noEntry := by
    have turned : fs.turn folder.dir folder.above made = .free := by
      rw [turn_plain isDir plain, look, free]
    rw [homeIs, home]
    exact lead_free turned
  have noDots : ".." ∉ rest := by
    have whole := ready.missing missing
    rw [split] at whole
    exact fun member => whole (List.mem_append_right _ (List.mem_cons_of_mem _ member))
  have soundAfter := @sound_addObject fs folder.dir made (.directory []) sound empty_directory isDir
  have tidyAfter (tidy : fs.Tidy) := @Tidy.newDirectory fs tidy sound folder.dir made isDir
  have kept := @kept_addObject fs folder.dir made (.directory []) sound isDir
  have child := @child?_addObject fs folder.dir made (.directory []) sound empty_directory
  have blank := @child?_newDirectory fs sound folder.dir made isDir
  have shape := @shape?_addObject fs folder.dir made (.directory []) sound isDir
  generalize fs.addObject folder.dir made (.directory []) = after at *
  -- The names on the way to the new directory were taken, so the way has stayed.
  have homeAfter : after.home (Path.isAbsolute front) before = .ok folder := by
    rw [FileSystem.home, start_congr kept]
    refine (lead_congr sound kept (start_within sound _) fun spot member => ?_).trans home
    obtain ⟨id, taken, _⟩ := passable spot member
    refine (child spot.1 spot.2).trans (if_neg fun isNew => ?_)
    rw [isNew.1, isNew.2, free] at taken
    cases taken
  have turned : after.turn folder.dir folder.above made = .object fs.next := by
    have isDirAfter := (isDirectoryId_congr (kept.shape _ within.dir)).trans isDir
    rw [turn_plain isDirAfter plain, look, child, if_pos ⟨rfl, rfl⟩]
    simp only [shape, FileObject.shape]
  have goesOn : after.homeOf front =
      after.lead ⟨folder.links, fs.next, folder.dir :: folder.above⟩ rest := by
    rw [homeIs, homeAfter]
    exact lead_object turned
  have inNew := @lead_blank after ⟨folder.links, fs.next, folder.dir :: folder.above⟩ rest
    (isDirectoryId_iff.mpr shape) blank noDots
  refine ⟨missing, soundAfter, tidyAfter, ?_⟩
  rw [goesOn, split]
  rcases inNew with stays | noEntry | ⟨tooLong, comp, member, long⟩
  · exact Or.inl ⟨_, stays, blank⟩
  · exact Or.inr (Or.inl noEntry)
  · refine Or.inr (Or.inr ⟨tooLong, comp, ?_, long⟩)
    exact List.mem_append_right _ (List.mem_cons_of_mem _ member)

/-- Making a directory on the way shows under no name of the directory. -/
theorem Ready.makeDirectory (ready : fs.Ready front)
    (absolute : Path.isAbsolute path = Path.isAbsolute front) {rest : List String}
    (split : Path.folderOf front = Path.components path ++ rest)
    (ok : fs.makeDirectory path = .ok after) :
    after.Ready front ∧ Spares fs after front (Lasting front) := by
  obtain ⟨missing, sound, tidy, homeAfter⟩ := ready.makeDirectory_home absolute split ok
  have opened {folder : Folder} (home : after.homeOf front = .ok folder) :
      after.isDirectoryId folder.dir = true ∧
        (∀ name, after.child? folder.dir name = none) ∧
        ∀ spot ∈ after.wayTo front, after.Passable spot := by
    obtain ⟨isDir, _, passable⟩ := lead_cases sound (start_within sound _) home
    refine ⟨isDir, ?_, passable⟩
    rcases homeAfter with ⟨other, same, blank⟩ | noEntry | ⟨tooLong, _⟩
    · cases home.symm.trans same
      exact blank
    · cases home.symm.trans noEntry
    · cases home.symm.trans tooLong
  refine ⟨⟨sound, fun _ => ready.missing missing, fun folder home => ?_⟩,
    ⟨fun path name names lasting _ => ?_, tidy, fun _ => missing⟩⟩
  · obtain ⟨isDir, blank, passable⟩ := opened home
    have unlinked : after.linked folder (Part.temporary.name front) = [] := by
      rw [linked, blank]
    refine ⟨fun part member => ?_, fun part member => ?_, Clear.of_blank isDir blank ?_⟩
    · obtain ⟨id, taken, _⟩ := passable _ member
      rw [blank] at taken
      cases taken
    · rw [unlinked] at member
      exact (List.not_mem_nil member).elim
    · exact Part.name_ne (by decide) front
  · have absent : fs.isPresent path = false := isPresent_of_home_error names missing
    refine ⟨fun folder home => ?_, ?_, fun fits => ?_⟩
    · obtain ⟨isDir, blank, _⟩ := opened home
      exact Clear.of_blank isDir blank lasting
    · have absentAfter : after.isPresent path = false := by
        rcases homeAfter with ⟨folder, home, blank⟩ | noEntry | ⟨tooLong, _⟩
        · exact isPresent_of_free sound names home (blank name)
        · exact isPresent_of_home_error names noEntry
        · exact isPresent_of_home_error names tooLong
      rw [glance, glance, absent, absentAfter]
      rfl
    · have short := fits missing
      rw [read_of_home_error names missing]
      rcases homeAfter with ⟨folder, home, blank⟩ | noEntry | ⟨_, comp, member, long⟩
      · exact read_of_free sound names home (blank name) (short name List.mem_cons_self)
      · exact read_of_home_error names noEntry
      · exact absurd long (Nat.not_lt.mpr (short comp (List.mem_cons_of_mem _ member)))

/-! ## Writing the temporary file -/

/-- The temporary file is there and holds the text. -/
structure Staged (fs : FileSystem) (front : String) (folder : Folder) (text : ByteArray) : Prop where
  ready : fs.Ready front
  opens : fs.Opens front folder
  written : ∃ place id, fs.walkOn true folder [Part.temporary.name front] = .ok place ∧
    place.target? = some id ∧ fs.content? id = some text

theorem Opens.kept (opens : fs.Opens front folder) (kept : Kept fs after)
    (home : after.homeOf front = .ok folder) : after.Opens front folder where
  home := home
  isDir := (isDirectoryId_congr (kept.shape _ opens.within.dir)).trans opens.isDir
  within := ⟨Nat.lt_of_lt_of_le opens.within.dir kept.next,
    fun up member => Nat.lt_of_lt_of_le (opens.within.above up member) kept.next⟩
  plain := opens.plain
  accepted := opens.accepted

/-- Names behind a link under the temporary name stay fixed if the walk there has not changed. -/
theorem Alters.steady {spots : Spot → Prop} {files : ObjectId → Prop}
    (alters : fs.Alters after front folder spots files) (sound : fs.Sound)
    (steady : fs.Steady front folder name)
    (linked : after.linked folder name = fs.linked folder name) :
    after.Steady front folder name := by
  intro part member
  rw [linked] at member
  exact alters.fixed sound (steady part member)

/-- A file that is made on writing the temporary one. -/
theorem Ready.write_new (ready : fs.Ready front) (opens : fs.Opens front folder) {dir : ObjectId}
    {above : List ObjectId} {spot : String}
    (ends : fs.walkOn true folder [Part.temporary.name front] = .ok (.entry dir above spot none)) :
    (fs.addObject dir spot (.file text false)).Staged front folder text ∧
      Spares fs (fs.addObject dir spot (.file text false)) front (Lasting front) := by
  have sound := ready.sound
  have apart := ready.apart folder opens.home
  obtain ⟨isDir, free, member⟩ := walkOn_ends sound opens.within ends
  have plain := opens.plain Part.temporary
  have blank : ∀ entries, FileObject.file text false = .directory entries → entries = [] :=
    fun entries same => by cases same
  have kept := @kept_addObject fs dir spot (.file text false) sound isDir
  have soundAfter := @sound_addObject fs dir spot (.file text false) sound blank isDir
  have child := @child?_addObject fs dir spot (.file text false) sound blank
  have shape := @shape?_addObject fs dir spot (.file text false) sound isDir
  have contents := @content?_addObject fs dir spot (.file text false) sound isDir
  have shapes := @shape?_addObject_of_le fs dir spot (.file text false) sound blank isDir
  generalize fs.addObject dir spot (.file text false) = after
    at kept soundAfter child shape contents shapes ⊢
  have loose : ¬ fs.IsFixed (dir, spot) := by
    rintro ⟨id, taken, _⟩
    rw [free] at taken
    cases taken
  -- Links lead past the names of the front, so of these only the temporary one can be filled.
  have filled (part : Part) (same : (folder.dir, part.name front) = (dir, spot)) :
      part = Part.temporary := by
    rw [visits_plain opens.isDir plain] at member
    rcases List.mem_cons.mp member with atName | behind
    · exact (Part.name_inj (Prod.mk.inj (same.trans atName)).2).1
    · rw [← same] at behind loose
      exact (loose (apart.temporary part behind)).elim
  have alters : fs.Alters after front folder (· = (dir, spot)) (fun _ => False) := by
    refine ⟨soundAfter, kept, fun other differ => ?_, fun id below _ => ?_, ?_, ?_,
      fun _ none => none.elim, fun id above => shapes above, ?_⟩
    · exact (child other.1 other.2).trans (if_neg fun same => differ (Prod.ext same.1 same.2))
    · rw [contents, content?_setContent, if_neg (Nat.ne_of_lt below)]
    · rintro _ rfl
      exact loose
    · rintro _ rfl
      exact Or.inr ⟨above, ends⟩
    · rintro _ id rfl taken
      rw [child, if_pos ⟨rfl, rfl⟩] at taken
      cases taken
      exact Or.inl ⟨Nat.le_refl _, fun _ same => same⟩
  have fills : Fills fs after dir spot fs.next := by
    refine ⟨isDir, free, (child dir spot).trans (if_pos ⟨rfl, rfl⟩), shape, fun other differ => ?_⟩
    exact alters.names other differ
  obtain ⟨endsAfter, visited⟩ := walkOn_fill sound kept fills opens.within ends
  have moves : Moves fs after front folder := by
    intro place endsPlace
    rw [endsAfter] at endsPlace
    cases endsPlace
    exact Or.inr (Or.inl ⟨fs.next, rfl, Nat.le_refl _⟩)
  have opensAfter := opens.kept kept (alters.way sound opens.home apart).1
  have steady : after.Steady front folder (Part.temporary.name front) := by
    refine alters.steady sound apart.temporary ?_
    rw [visits_plain opens.isDir plain, visits_plain opensAfter.isDir plain] at visited
    exact (List.cons.inj visited).2
  have own : ¬ (folder.dir, Part.document.name front) = (dir, spot) :=
    fun same => absurd (filled Part.document same) (by decide)
  refine ⟨⟨alters.ready sound opens.home apart own moves steady, opensAfter, ?_⟩, ?_⟩
  · refine ⟨_, fs.next, endsAfter, rfl, ?_⟩
    rw [contents, content?_setContent, if_pos rfl]
  · refine alters.spares sound opens.home apart (fun name part lasting same => ?_) moves
      fun _ lasting => lasting
    rw [filled part same]
    exact lasting

/-- A file that was there and is written to in place of the temporary one. -/
theorem Ready.write_old (ready : fs.Ready front) (opens : fs.Opens front folder) {place : Place}
    {id : ObjectId} {executable : Bool}
    (ends : fs.walkOn true folder [Part.temporary.name front] = .ok place)
    (target : place.target? = some id) (isFile : fs.shape? id = some .file) :
    (fs.setObject id (.file text executable)).Staged front folder text ∧
      Spares fs (fs.setObject id (.file text executable)) front (Lasting front) := by
  have sound := ready.sound
  have apart := ready.apart folder opens.home
  have kept : Kept fs (fs.setObject id (.file text executable)) := kept_setObject isFile
  have alters : fs.Alters (fs.setObject id (.file text executable)) front folder (fun _ => False)
      (· = id) := by
    have soundAfter : (fs.setObject id (.file text executable)).Sound :=
      sound_setContent sound isFile
    refine ⟨soundAfter, kept, fun other _ => ?_, fun other _ differ => ?_,
      fun _ none => none.elim, fun _ none => none.elim, ?_,
      fun other above => Or.inl (soundAfter.shape?_of_le above), fun _ _ none => none.elim⟩
    · exact child?_setContent isFile other.1 other.2
    · rw [content?_setContent, if_neg differ]
    · rintro _ rfl
      exact ⟨place, ends, target⟩
  have names := Part.temporary.names front
  have endsAfter := (alters.walkOn sound opens.within names.dot names.dots (fun none => none)
    fun _ _ none => none).trans ends
  have moves : Moves fs (fs.setObject id (.file text executable)) front folder := by
    intro other endsOther
    rw [endsAfter] at endsOther
    exact Or.inl (ends.trans endsOther)
  have steady := alters.steady sound apart.temporary
    (alters.linked sound opens.within (fun none => none) fun _ _ none => none)
  refine ⟨⟨alters.ready sound opens.home apart (fun none => none) moves steady,
    opens.kept kept (alters.way sound opens.home apart).1, ?_⟩, ?_⟩
  · refine ⟨place, id, endsAfter, target, ?_⟩
    rw [content?_setContent, if_pos rfl]
  · exact alters.spares sound opens.home apart (fun _ _ _ none => none.elim) moves
      fun _ lasting => lasting

/-- Writing the temporary file stages the text and shows under no other name. -/
theorem Ready.write (ready : fs.Ready front)
    (ok : fs.write (Part.temporary.path front) text = .ok after) :
    ∃ folder, fs.Opens front folder ∧ after.Staged front folder text ∧
      Spares fs after front (Lasting front) := by
  obtain ⟨folder, dir, above, spot, reaches, written⟩ :=
    write_ok ready.sound (Part.temporary.names front) ok
  have opens := reaches.opens
  rcases written with ⟨ends, rfl⟩ | ⟨id, executable, ends, isFile, rfl⟩
  · exact ⟨folder, opens, ready.write_new opens ends⟩
  · exact ⟨folder, opens, ready.write_old opens ends rfl isFile⟩

/-! ## One object under another name -/

theorem not_fixed {id : ObjectId} (child : fs.child? spot.1 spot.2 = some id)
    (notDir : fs.isDirectoryId id = false) : ¬ fs.IsFixed spot := by
  rintro ⟨other, taken, isDir⟩
  rw [child] at taken
  cases taken
  rw [notDir] at isDir
  cases isDir

theorem not_fixed_of_free (free : fs.child? spot.1 spot.2 = none) : ¬ fs.IsFixed spot := by
  rintro ⟨id, taken, _⟩
  rw [free] at taken
  cases taken

/-- A change of what one of the three names stands for: nothing, a new file, or the document. -/
theorem alters_name (part : Part) {taken : Option ObjectId} (sound : after.Sound)
    (kept : Kept fs after)
    (child : ∀ other wanted, after.child? other wanted =
      if other = folder.dir ∧ wanted = part.name front then taken else fs.child? other wanted)
    (contents : ∀ id < fs.next, after.content? id = fs.content? id)
    (shapes : ∀ id, fs.next ≤ id → after.shape? id = none ∨ after.shape? id = some .file)
    (loose : ¬ fs.IsFixed (folder.dir, part.name front))
    (origin : ∀ id, taken = some id → fs.next ≤ id ∨
      part ≠ .temporary ∧ fs.child? folder.dir (Part.document.name front) = some id) :
    fs.Alters after front folder (· = (folder.dir, part.name front)) (fun _ => False) := by
  refine ⟨sound, kept, fun other differ => ?_, fun id below _ => contents id below, ?_, ?_,
    fun _ none => none.elim, shapes, ?_⟩
  · exact (child other.1 other.2).trans (if_neg fun same => differ (Prod.ext same.1 same.2))
  · rintro _ rfl
    exact loose
  · rintro _ rfl
    exact Or.inl ⟨part, rfl⟩
  · rintro _ id rfl stands
    rw [child, if_pos ⟨rfl, rfl⟩] at stands
    rcases origin id stands with above | ⟨lasting, document⟩
    · exact Or.inl ⟨above, fun _ same => same⟩
    · exact Or.inr ⟨.document, part, lasting, rfl, document, fun none => by cases none⟩

/-- What was found under one name is found under another that stands for the same object. -/
theorem Alters.carries {spots : Spot → Prop} {files : ObjectId → Prop}
    (alters : fs.Alters after front folder spots files) (sound : fs.Sound)
    (opens : fs.Opens front folder) {source dest : Part} {id : ObjectId}
    (taken : fs.child? folder.dir (source.name front) = some id)
    (takenAfter : after.child? folder.dir (dest.name front) = some id)
    (steady : fs.Steady front folder (source.name front))
    (inFolder : ∀ spot, spots spot → ∃ part : Part, spot = (folder.dir, part.name front)) :
    after.linked folder (dest.name front) = fs.linked folder (source.name front) ∧
      ∀ place target, fs.walkOn true folder [source.name front] = .ok place →
        place.target? = some target →
        ∃ placeAfter, after.walkOn true folder [dest.name front] = .ok placeAfter ∧
          placeAfter.target? = some target := by
  have isLinked : (fs.beyond looking folder id).getD [] = fs.linked folder (source.name front) := by
    rw [FileSystem.linked, taken]
  have same : ∀ spot ∈ (fs.beyond looking folder id).getD [], SameChild fs after spot := by
    intro spot member
    rw [isLinked] at member
    refine alters.names spot fun changed => ?_
    obtain ⟨part, rfl⟩ := inFolder spot changed
    exact alters.loose _ changed (steady part member)
  have below := sound.child _ _ _ taken
  refine ⟨?_, fun place target ends isTarget => ?_⟩
  · rw [FileSystem.linked, takenAfter, ← isLinked]
    exact congrArg (Option.getD · []) (beyond_congr looking sound alters.kept opens.within below same)
  · have isDirAfter := (isDirectoryId_congr (alters.kept.shape _ opens.within.dir)).trans opens.isDir
    have beyondAfter := beyond_congr ending sound alters.kept opens.within below same
    rw [walkOn_plain opens.isDir (opens.plain source), taken] at ends
    rw [walkOn_plain isDirAfter (opens.plain dest), takenAfter]
    dsimp only at ends ⊢
    rw [beyondAfter]
    cases behind : fs.beyond ending folder id with
    | none =>
        rw [behind] at ends
        cases ends
        exact ⟨_, rfl, isTarget⟩
    | some found =>
        rw [behind] at ends
        exact ⟨place, ends, isTarget⟩

/-! ## Changing the backup -/

/-- The backup holds the old content, and does so whatever becomes of the other two names. -/
structure BackedUp (fs : FileSystem) (front : String) (folder : Folder) (old : ByteArray) : Prop where
  steady : fs.Steady front folder (Part.backup.name front)
  read : fs.read (Part.backup.path front) = .ok old

/-- The name is neither the temporary one nor that of the backup. -/
def Beside (front name : String) : Prop := Lasting front name ∧ name ≠ Part.backup.name front

/-- The temporary file stays staged when the backup changes. -/
theorem Staged.alters (staged : fs.Staged front folder text)
    (alters : fs.Alters after front folder (· = (folder.dir, Part.backup.name front))
      (fun _ => False)) :
    after.Staged front folder text ∧ Spares fs after front (Beside front) := by
  have sound := staged.ready.sound
  have opens := staged.opens
  have apart := staged.ready.apart folder opens.home
  have names := Part.temporary.names front
  have own : ¬ (folder.dir, Part.temporary.name front) = (folder.dir, Part.backup.name front) :=
    fun same => Part.name_ne (by decide) front (Prod.mk.inj same).2
  have behind : ∀ spot ∈ fs.linked folder (Part.temporary.name front),
      ¬ spot = (folder.dir, Part.backup.name front) := by
    rintro spot member rfl
    exact alters.loose _ rfl (apart.temporary Part.backup member)
  have walk := alters.walkOn sound opens.within names.dot names.dots own behind
  have moves : Moves fs after front folder := fun place ends => Or.inl (walk.symm.trans ends)
  have steady := alters.steady sound apart.temporary (alters.linked sound opens.within own behind)
  have document : ¬ (folder.dir, Part.document.name front) = (folder.dir, Part.backup.name front) :=
    fun same => Part.name_ne (by decide) front (Prod.mk.inj same).2
  obtain ⟨place, id, ends, target, holds⟩ := staged.written
  have below := (walkOn_ends sound opens.within ends).target_lt sound target
  refine ⟨⟨alters.ready sound opens.home apart document moves steady,
    opens.kept alters.kept (alters.way sound opens.home apart).1, ?_⟩, ?_⟩
  · exact ⟨place, id, walk.trans ends, target, (alters.contents id below fun none => none).trans holds⟩
  · refine alters.spares sound opens.home apart (fun name part beside same => ?_) moves
      fun _ beside => beside.1
    rw [(Prod.mk.inj same).2]
    exact beside.2

/-- The document stays as it is when the backup changes. -/
theorem Staged.document_unchanged (staged : fs.Staged front folder text)
    (spares : Spares fs after front (Beside front)) :
    Unchanged fs after front (Part.document.path front) (Part.document.name front) := by
  have beside : Beside front (Part.document.name front) :=
    ⟨Part.name_ne (by decide) front, Part.name_ne (by decide) front⟩
  exact (spares.names _ _ (Part.document.names front) beside staged.ready.aside).2

theorem Staged.document_read (staged : fs.Staged front folder text)
    (spares : Spares fs after front (Beside front))
    (reads : fs.read (Part.document.path front) = .ok content) :
    after.read (Part.document.path front) = .ok content :=
  FileSystem.read_of_glance (staged.document_unchanged spares).glance reads

/-- The old backup is removed. -/
theorem Staged.remove (staged : fs.Staged front folder text)
    (ok : fs.remove (Part.backup.path front) = .ok after) :
    after.Staged front folder text ∧ Spares fs after front (Beside front) ∧
      after.child? folder.dir (Part.backup.name front) = none := by
  have sound := staged.ready.sound
  obtain ⟨other, id, reaches, child, notDir, rfl⟩ := remove_ok sound (Part.backup.names front) ok
  cases reaches.home.symm.trans staged.opens.home
  have dropped := @child?_dropEntry fs folder.dir (Part.backup.name front)
  have soundAfter := @sound_dropEntry fs folder.dir (Part.backup.name front) sound reaches.isDir
  have alters := alters_name Part.backup soundAfter (kept_dropEntry reaches.isDir) dropped
    (fun id _ => content?_dropEntry reaches.isDir id)
    (fun id above => Or.inl (soundAfter.shape?_of_le above)) (not_fixed child notDir)
    (fun _ none => by cases none)
  obtain ⟨stagedAfter, spares⟩ := staged.alters alters
  exact ⟨stagedAfter, spares, (dropped _ _).trans (if_pos ⟨rfl, rfl⟩)⟩

/-- The document gets the name of the backup as its second one. -/
theorem Staged.link (staged : fs.Staged front folder text)
    (ok : fs.link (Part.document.path front) (Part.backup.path front) = .ok after) :
    after.Staged front folder text ∧ Spares fs after front (Beside front) ∧
      ∀ old, fs.read (Part.document.path front) = .ok old → after.BackedUp front folder old := by
  have sound := staged.ready.sound
  have opens := staged.opens
  obtain ⟨other, id, reaches, _, child, notDir, free, rfl⟩ :=
    link_ok sound (Part.document.names front) (Part.backup.names front) ok
  cases reaches.home.symm.trans opens.home
  have below := sound.child _ _ _ child
  have entered := @child?_setEntry fs id folder.dir (Part.backup.name front)
  have soundAfter := @sound_setEntry fs id folder.dir (Part.backup.name front) sound opens.isDir below
  have alters := alters_name Part.backup soundAfter (kept_setEntry opens.isDir) entered
    (fun id _ => content?_setEntry opens.isDir id)
    (fun id above => Or.inl (soundAfter.shape?_of_le above)) (not_fixed_of_free free)
    (fun other same => Or.inr ⟨by decide, child.trans same⟩)
  obtain ⟨stagedAfter, spares⟩ := staged.alters alters
  have steady := (staged.ready.apart folder opens.home).document.steady
  obtain ⟨linked, found⟩ := alters.carries sound opens child
    ((entered _ _).trans (if_pos ⟨rfl, rfl⟩)) steady fun _ same => ⟨Part.backup, same⟩
  refine ⟨stagedAfter, spares, fun old reads => ⟨fun part member => ?_, ?_⟩⟩
  · rw [linked] at member
    exact alters.fixed sound (steady part member)
  · obtain ⟨place, target, ends, isTarget, holds⟩ :=
      (opens.reaches Part.document).of_read sound (Part.document.names front) reads
    obtain ⟨placeAfter, endsAfter, targetAfter⟩ := found place target ends isTarget
    refine (stagedAfter.opens.reaches Part.backup).read (Part.backup.names front) endsAfter
      targetAfter ?_
    exact (content?_setEntry opens.isDir target).trans holds

/-- A file is made for the backup. -/
theorem Staged.write (staged : fs.Staged front folder text)
    (free : fs.child? folder.dir (Part.backup.name front) = none)
    (ok : fs.write (Part.backup.path front) content = .ok after) :
    after.Staged front folder text ∧ Spares fs after front (Beside front) ∧
      after.BackedUp front folder content := by
  have sound := staged.ready.sound
  have opens := staged.opens
  have plain := opens.plain Part.backup
  obtain ⟨other, dir, above, spot, reaches, written⟩ :=
    write_ok sound (Part.backup.names front) ok
  cases reaches.home.symm.trans opens.home
  rw [walkOn_plain opens.isDir plain, free] at written
  rcases written with ⟨ends, rfl⟩ | ⟨id, executable, ends, _⟩
  · cases ends
    have blank : ∀ entries, FileObject.file content false = .directory entries → entries = [] :=
      fun entries same => by cases same
    have kept := @kept_addObject fs folder.dir (Part.backup.name front) (.file content false) sound
      opens.isDir
    have child := @child?_addObject fs folder.dir (Part.backup.name front) (.file content false)
      sound blank
    have shape := @shape?_addObject fs folder.dir (Part.backup.name front) (.file content false)
      sound opens.isDir
    have contents := @content?_addObject fs folder.dir (Part.backup.name front)
      (.file content false) sound opens.isDir
    have alters := alters_name Part.backup (sound_addObject sound blank opens.isDir) kept child
      (fun id below => by rw [contents, content?_setContent, if_neg (Nat.ne_of_lt below)])
      (fun id above => shape?_addObject_of_le sound blank opens.isDir above)
      (not_fixed_of_free free) (fun id same => Or.inl (Nat.le_of_eq (Option.some.inj same)))
    obtain ⟨stagedAfter, spares⟩ := staged.alters alters
    have taken := (child folder.dir (Part.backup.name front)).trans (if_pos ⟨rfl, rfl⟩)
    have notLink {α : Type} (reading : Reading α) :
        (fs.addObject folder.dir (Part.backup.name front) (.file content false)).beyond reading
          folder fs.next = none := by
      refine beyond_of_not_link fun target isLink => ?_
      rw [shape] at isLink
      cases isLink
    refine ⟨stagedAfter, spares, fun part member => ?_, ?_⟩
    · rw [linked, taken] at member
      dsimp only at member
      rw [notLink] at member
      exact (List.not_mem_nil member).elim
    · have endsAfter := walkOn_plain stagedAfter.opens.isDir plain
      rw [taken] at endsAfter
      dsimp only at endsAfter
      rw [notLink] at endsAfter
      refine (stagedAfter.opens.reaches Part.backup).read (Part.backup.names front) endsAfter rfl ?_
      rw [contents, content?_setContent, if_pos rfl]
  · cases ends

/-! ## Renaming and discarding -/

/-- A change of the two names that a renaming is about, or of the temporary one alone. -/
def Renames (front : String) (folder : Folder) (spot : Spot) : Prop :=
  spot = (folder.dir, Part.document.name front) ∨ spot = (folder.dir, Part.temporary.name front)

theorem Renames.part (renames : Renames front folder spot) :
    ∃ part : Part, spot = (folder.dir, part.name front) :=
  renames.elim (fun same => ⟨_, same⟩) (fun same => ⟨_, same⟩)

/-- The name is neither the temporary one nor that of the document. -/
def Outside (front name : String) : Prop := Lasting front name ∧ name ≠ Part.document.name front

/-- Where a staged file is written to, there is no directory. -/
theorem Staged.not_directory (staged : fs.Staged front folder text) {id : ObjectId}
    (child : fs.child? folder.dir (Part.temporary.name front) = some id) :
    fs.isDirectoryId id = false := by
  obtain ⟨place, target, ends, isTarget, holds⟩ := staged.written
  rw [walkOn_plain staged.opens.isDir (staged.opens.plain Part.temporary), child] at ends
  dsimp only at ends
  cases isDir : fs.isDirectoryId id with
  | false => rfl
  | true =>
      rw [beyond_of_directory isDir] at ends
      cases ends
      cases isTarget
      rw [content?_of_directory isDir] at holds
      cases holds

/-- The temporary file and the document are different objects. -/
theorem Staged.apart (staged : fs.Staged front folder text) {id : ObjectId}
    (child : fs.child? folder.dir (Part.temporary.name front) = some id) :
    fs.child? folder.dir (Part.document.name front) ≠ some id := by
  intro same
  have isDir := staged.opens.isDir
  obtain ⟨place, target, ends, isTarget, _⟩ := staged.written
  have document := walkOn_plain isDir (staged.opens.plain Part.document)
  have temporary := ends
  rw [walkOn_plain isDir (staged.opens.plain Part.temporary), child] at temporary
  rw [same] at document
  have clear := (staged.ready.apart folder staged.opens.home).document
  cases behind : fs.beyond ending folder id with
  | none =>
      simp only [behind, Option.getD_none] at temporary document
      cases temporary
      cases isTarget
      exact clear.object _ _ _ document ends rfl rfl
  | some found =>
      simp only [behind, Option.getD_some] at temporary document
      rw [temporary] at document
      exact clear.object _ _ _ document ends isTarget isTarget

/-- A renaming moves one object and changes nothing else. A directory is replaced by a directory only,
and the temporary file is none. -/
theorem Staged.moves (staged : fs.Staged front folder text)
    (ok : fs.rename (Part.temporary.path front) (Part.document.path front) = .ok after) :
    ∃ id, fs.child? folder.dir (Part.temporary.name front) = some id ∧
      after.child? folder.dir (Part.document.name front) = some id ∧
      after.child? folder.dir (Part.temporary.name front) = none ∧
      fs.Alters after front folder (Renames front folder) (fun _ => False) := by
  have sound := staged.ready.sound
  have opens := staged.opens
  obtain ⟨other, id, reaches, _, child, moved⟩ :=
    rename_ok sound (Part.temporary.names front) (Part.document.names front) ok
  cases reaches.home.symm.trans opens.home
  rcases moved with ⟨same, _⟩ | ⟨_, directories, isAfter⟩
  · exact (staged.apart child same).elim
  have notDir := staged.not_directory child
  obtain ⟨soundAfter, kept, isNext, childAfter, contents⟩ :=
    moveEntry_spec sound opens.isDir (sound.child _ _ _ child) _ _ isAfter.symm
  have differ : Part.document.name front ≠ Part.temporary.name front :=
    Part.name_ne (by decide) front
  have taken : after.child? folder.dir (Part.document.name front) = some id := by
    rw [childAfter, if_neg fun same => differ same.2, if_pos ⟨rfl, rfl⟩]
  have freed : after.child? folder.dir (Part.temporary.name front) = none := by
    rw [childAfter, if_pos ⟨rfl, rfl⟩]
  refine ⟨id, child, taken, freed, soundAfter, kept, fun spot stays => ?_,
    fun other _ _ => contents other, ?_, ?_, fun _ none => none.elim,
    fun id above => Or.inl (soundAfter.shape?_of_le (isNext ▸ above)), ?_⟩
  · rw [Renames, not_or] at stays
    rw [SameChild, childAfter, if_neg fun same => stays.2 (Prod.ext same.1 same.2),
      if_neg fun same => stays.1 (Prod.ext same.1 same.2)]
  · rintro spot (rfl | rfl)
    · rintro ⟨replaced, isReplaced, isDir⟩
      rw [directories replaced isReplaced isDir] at notDir
      cases notDir
    · exact not_fixed child notDir
  · exact fun spot renames => Or.inl renames.part
  · rintro spot other (rfl | rfl) stands
    · cases taken.symm.trans stands
      exact Or.inr ⟨.temporary, .document, by decide, rfl, child, fun _ => freed⟩
    · cases freed.symm.trans stands

/-- The temporary file takes the place of the document. -/
theorem Staged.rename (staged : fs.Staged front folder text)
    (ok : fs.rename (Part.temporary.path front) (Part.document.path front) = .ok after) :
    after.Ready front ∧ Spares fs after front (Outside front) ∧
      after.read (Part.document.path front) = .ok text ∧
      after.resolve false (Part.temporary.path front) = .error (.numbered .noEntry) := by
  have sound := staged.ready.sound
  have opens := staged.opens
  have apart := staged.ready.apart folder opens.home
  obtain ⟨id, child, taken, freed, alters⟩ := staged.moves ok
  have loose : ¬ fs.IsFixed (folder.dir, Part.temporary.name front) := alters.loose _ (Or.inr rfl)
  obtain ⟨home, way⟩ := alters.way sound opens.home apart
  have opensAfter := opens.kept alters.kept home
  have endsAfter : after.walkOn true folder [Part.temporary.name front] =
      .ok (.entry folder.dir folder.above (Part.temporary.name front) none) := by
    rw [walkOn_plain opensAfter.isDir (opens.plain Part.temporary), freed]
  have moves : Moves fs after front folder := by
    intro place ends
    rw [endsAfter] at ends
    cases ends
    exact Or.inr (Or.inr ⟨rfl, loose⟩)
  obtain ⟨linked, found⟩ := alters.carries sound opens child taken apart.temporary
    fun _ renames => renames.part
  have document : after.Clear front folder (Part.document.name front) := by
    refine ⟨fun part member => ?_, fun dir above spot ends => ?_, fun _ others _ _ ends _ => ?_⟩
    · rw [linked] at member
      exact alters.fixed sound (apart.temporary part member)
    · rw [endsAfter] at ends
      cases ends
      rw [linked]
      refine ⟨fun same => ?_, fun member => loose (apart.temporary Part.temporary member)⟩
      exact Part.name_ne (by decide) front (Prod.mk.inj same).2
    · rw [endsAfter] at ends
      cases ends
      exact fun same => by cases same
  refine ⟨⟨alters.sound, fun missing => ?_, fun reached reaches => ?_⟩, ?_, ?_, ?_⟩
  · rw [home] at missing
    cases missing
  · cases home.symm.trans reaches
    refine ⟨fun part member => ?_, fun part member => ?_, document⟩
    · rw [way] at member
      exact alters.fixed sound (apart.way part member)
    · rw [FileSystem.linked, freed] at member
      exact (List.not_mem_nil member).elim
  · refine alters.spares sound opens.home apart (fun name part outside renamed => ?_) moves
      fun _ outside => outside.1
    rcases renamed with same | same
    · rw [(Prod.mk.inj same).2]
      exact outside.2
    · rw [(Prod.mk.inj same).2]
      exact outside.1
  · obtain ⟨place, target, ends, isTarget, holds⟩ := staged.written
    have below := (walkOn_ends sound opens.within ends).target_lt sound isTarget
    obtain ⟨placeAfter, endsAt, isTargetAfter⟩ := found place target ends isTarget
    exact (opensAfter.reaches Part.document).read (Part.document.names front) endsAt isTargetAfter
      ((alters.contents target below fun none => none).trans holds)
  · rw [resolve_eq, (opensAfter.reaches Part.temporary).locate_name (Part.temporary.names front),
      freed]
    rfl

/-- The backup keeps what it holds whatever becomes of the other two names. -/
theorem BackedUp.outlasts {spots : Spot → Prop} (backedUp : fs.BackedUp front folder old)
    (ready : fs.Ready front) (opens : fs.Opens front folder)
    (alters : fs.Alters after front folder spots (fun _ => False))
    (others : ∀ spot, spots spot → ∃ part : Part, part ≠ .backup ∧
      spot = (folder.dir, part.name front)) :
    after.read (Part.backup.path front) = .ok old := by
  have own : ¬ spots (folder.dir, Part.backup.name front) := by
    intro changed
    obtain ⟨part, differ, same⟩ := others _ changed
    exact Part.name_ne differ.symm front (Prod.mk.inj same).2
  have behind : ∀ spot ∈ fs.linked folder (Part.backup.name front), ¬ spots spot := by
    intro spot member changed
    obtain ⟨part, _, rfl⟩ := others _ changed
    exact alters.loose _ changed (backedUp.steady part member)
  have unchanged := alters.unchanged ready.sound opens.home (ready.apart folder opens.home)
    (Part.backup.names front) own behind fun _ _ _ _ none => none
  refine (unchanged.read fun missing => ?_).trans backedUp.read
  rw [opens.home] at missing
  cases missing

theorem Staged.rename_backup (staged : fs.Staged front folder text)
    (backedUp : fs.BackedUp front folder old)
    (ok : fs.rename (Part.temporary.path front) (Part.document.path front) = .ok after) :
    after.read (Part.backup.path front) = .ok old := by
  obtain ⟨id, _, _, _, alters⟩ := staged.moves ok
  refine backedUp.outlasts staged.ready staged.opens alters ?_
  rintro spot (same | same)
  · exact ⟨Part.document, by decide, same⟩
  · exact ⟨Part.temporary, by decide, same⟩

/-! ## Calls that succeed -/

/-- Under the name of a document that is a file or absent there is no directory. -/
theorem Opens.not_directory (opens : fs.Opens front folder)
    (isFile : ∀ cause, fs.glance (Part.document.path front) ≠ some (.error cause)) {id : ObjectId}
    (child : fs.child? folder.dir (Part.document.name front) = some id) :
    fs.isDirectoryId id = false := by
  cases isDir : fs.isDirectoryId id with
  | false => rfl
  | true =>
      have ends := walkOn_plain opens.isDir (opens.plain Part.document)
      rw [child] at ends
      dsimp only at ends
      rw [beyond_of_directory isDir] at ends
      have found : fs.resolve true (Part.document.path front) = .ok id := by
        rw [resolve_eq, (opens.reaches Part.document).locate (Part.document.names front), ends]
        rfl
      have fails : fs.read (Part.document.path front) = .error (.numbered .isADirectory) := by
        rw [read_eq, found]
        dsimp only
        rw [content?_of_directory isDir]
        rfl
      refine (isFile (.numbered .isADirectory) ?_).elim
      rw [glance, isPresent, found, fails]
      rfl

theorem Staged.link_succeeds (staged : fs.Staged front folder text)
    (isFile : ∀ cause, fs.glance (Part.document.path front) ≠ some (.error cause))
    (present : fs.isPresent (Part.document.path front) = true)
    (free : fs.child? folder.dir (Part.backup.name front) = none) :
    ∃ after, fs.link (Part.document.path front) (Part.backup.path front) = .ok after := by
  have opens := staged.opens
  have sound := staged.ready.sound
  cases child : fs.child? folder.dir (Part.document.name front) with
  | none =>
      rw [isPresent_of_free sound (Part.document.names front) opens.home child] at present
      cases present
  | some id =>
      have notDir := opens.not_directory isFile child
      have found : fs.resolve false (Part.document.path front) = .ok id := by
        rw [resolve_eq, (opens.reaches Part.document).locate_name (Part.document.names front), child]
        rfl
      refine ⟨fs.setEntry folder.dir (Part.backup.name front) id, ?_⟩
      rw [FileSystem.link, found,
        (opens.reaches Part.backup).locate_name (Part.backup.names front), free]
      simp [bind, Except.bind, notDir]

theorem Staged.rename_succeeds (staged : fs.Staged front folder text)
    (isFile : ∀ cause, fs.glance (Part.document.path front) ≠ some (.error cause)) :
    ∃ after, fs.rename (Part.temporary.path front) (Part.document.path front) = .ok after := by
  have opens := staged.opens
  cases child : fs.child? folder.dir (Part.temporary.name front) with
  | none =>
      obtain ⟨place, target, ends, isTarget, _⟩ := staged.written
      rw [walkOn_plain opens.isDir (opens.plain Part.temporary), child] at ends
      cases ends
      cases isTarget
  | some id =>
      rw [FileSystem.rename,
        (opens.reaches Part.temporary).locate_name (Part.temporary.names front), child,
        (opens.reaches Part.document).locate_name (Part.document.names front)]
      cases taken : fs.child? folder.dir (Part.document.name front) with
      | none => exact ⟨_, rfl⟩
      | some other =>
          have notDir := opens.not_directory isFile taken
          have differ : other ≠ id := fun same => staged.apart child (same ▸ taken)
          simp [bind, Except.bind, notDir, differ]

/-- Removing the temporary file frees its name and changes nothing else. -/
theorem Ready.drops (ready : fs.Ready front)
    (ok : fs.remove (Part.temporary.path front) = .ok after) :
    ∃ folder, fs.Opens front folder ∧
      after.child? folder.dir (Part.temporary.name front) = none ∧
      fs.Alters after front folder (· = (folder.dir, Part.temporary.name front))
        (fun _ => False) := by
  have sound := ready.sound
  obtain ⟨folder, id, reaches, child, notDir, rfl⟩ :=
    remove_ok sound (Part.temporary.names front) ok
  have opens := reaches.opens
  have dropped := @child?_dropEntry fs folder.dir (Part.temporary.name front)
  have soundAfter := @sound_dropEntry fs folder.dir (Part.temporary.name front) sound opens.isDir
  refine ⟨folder, opens, (dropped _ _).trans (if_pos ⟨rfl, rfl⟩), ?_⟩
  exact alters_name Part.temporary soundAfter (kept_dropEntry opens.isDir) dropped
    (fun id _ => content?_dropEntry opens.isDir id)
    (fun id above => Or.inl (soundAfter.shape?_of_le above)) (not_fixed child notDir)
    (fun _ none => by cases none)

/-- Removing the temporary file shows under no other name. -/
theorem Ready.discard (ready : fs.Ready front)
    (ok : fs.remove (Part.temporary.path front) = .ok after) :
    after.Ready front ∧ Spares fs after front (Lasting front) := by
  have sound := ready.sound
  obtain ⟨folder, opens, freed, alters⟩ := ready.drops ok
  have apart := ready.apart folder opens.home
  have opensAfter := opens.kept alters.kept (alters.way sound opens.home apart).1
  have moves : Moves fs after front folder := by
    intro place ends
    rw [walkOn_plain opensAfter.isDir (opens.plain Part.temporary), freed] at ends
    cases ends
    exact Or.inr (Or.inr ⟨rfl, alters.loose _ rfl⟩)
  refine ⟨alters.ready sound opens.home apart (fun same => ?_) moves fun part member => ?_, ?_⟩
  · exact Part.name_ne (by decide) front (Prod.mk.inj same).2
  · rw [linked, freed] at member
    exact (List.not_mem_nil member).elim
  · refine alters.spares sound opens.home apart (fun name part lasting same => ?_) moves
      fun _ lasting => lasting
    rw [(Prod.mk.inj same).2]
    exact lasting

/-- The backup keeps what it holds when the temporary file is removed. -/
theorem BackedUp.discard (backedUp : fs.BackedUp front folder old) (ready : fs.Ready front)
    (opens : fs.Opens front folder) (ok : fs.remove (Part.temporary.path front) = .ok after) :
    after.read (Part.backup.path front) = .ok old := by
  obtain ⟨other, opensOther, _, alters⟩ := ready.drops ok
  cases opens.home.symm.trans opensOther.home
  refine backedUp.outlasts ready opens alters ?_
  rintro _ rfl
  exact ⟨Part.temporary, by decide, rfl⟩

end FileSystem

end NetplanEditor
