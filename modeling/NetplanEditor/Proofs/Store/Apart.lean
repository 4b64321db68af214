import NetplanEditor.Proofs.FileSystem.Flat
import NetplanEditor.Proofs.FileSystem.Reader
import NetplanEditor.Proofs.Store.Names

/-!
# Names that do not stand in each other's way

Saving a document changes what its three names stand for, and writes through one of them. Whether
that changes what is found under some other name depends on the links in the file system: a walk to
the directory, or behind a link, can lead through the three names, or to the file that is written.
`Apart` says that none of this happens for the document itself, and `Aside` that it does not for
another name of the directory. A name that stands for a directory may be passed: no call of a save
changes what it stands for.
-/

namespace NetplanEditor

namespace FileSystem

open FileStore (Part)

variable {fs middle after : FileSystem} {front path name : String} {folder : Folder} {spot : Spot}

/-! ## What must not be in the way -/

/-- The name stands for a directory. -/
def IsFixed (fs : FileSystem) (spot : Spot) : Prop :=
  ∃ id, fs.child? spot.1 spot.2 = some id ∧ fs.isDirectoryId id = true

/-- Behind a link under the name, no walk looks at one of the three names that could change. -/
def Steady (fs : FileSystem) (front : String) (folder : Folder) (name : String) : Prop :=
  ∀ part : Part, (folder.dir, part.name front) ∈ fs.linked folder name →
    fs.IsFixed (folder.dir, part.name front)

/-- Writing the temporary file does not show under the name. -/
structure Clear (fs : FileSystem) (front : String) (folder : Folder) (name : String) : Prop where
  steady : fs.Steady front folder name
  free : ∀ dir above spot,
    fs.walkOn true folder [Part.temporary.name front] = .ok (.entry dir above spot none) →
    (dir, spot) ≠ (folder.dir, name) ∧ (dir, spot) ∉ fs.linked folder name
  object : ∀ mine others id, fs.walkOn true folder [name] = .ok mine →
    fs.walkOn true folder [Part.temporary.name front] = .ok others →
    mine.target? = some id → others.target? ≠ some id

/-- The three names of a front do not stand in each other's way. -/
structure Apart (fs : FileSystem) (front : String) (folder : Folder) : Prop where
  way : ∀ part : Part, (folder.dir, part.name front) ∈ fs.wayTo front →
    fs.IsFixed (folder.dir, part.name front)
  temporary : fs.Steady front folder (Part.temporary.name front)
  document : fs.Clear front folder (Part.document.name front)

/-- What a save asks of the files: the directory of the document is there and its names are apart,
or walks fail on their way to it. A path through a missing directory must not lead back up. -/
structure Ready (fs : FileSystem) (front : String) : Prop where
  sound : fs.Sound
  missing : fs.homeOf front = .error .noEntry → ".." ∉ Path.folderOf front
  apart : ∀ folder, fs.homeOf front = .ok folder → fs.Apart front folder

/-- Saving does not show under another name of the directory. -/
def Aside (fs : FileSystem) (front name : String) : Prop :=
  ∀ folder, fs.homeOf front = .ok folder → fs.Clear front folder name

theorem Ready.aside (ready : fs.Ready front) : fs.Aside front (Part.document.name front) :=
  fun folder home => (ready.apart folder home).document

/-! ## What a reader sees -/

/-- What is found at a path, if anything is there. -/
def glance (fs : FileSystem) (path : String) : Option (Except SystemError ByteArray) :=
  if fs.isPresent path then some (fs.read path) else none

theorem isPresent_of_glance (same : after.glance path = fs.glance path) :
    after.isPresent path = fs.isPresent path := by
  unfold glance at same
  cases now : after.isPresent path <;> cases before : fs.isPresent path <;> simp_all

/-- What can be read at a path can be read where the same is found. -/
theorem read_of_glance {content : ByteArray} (same : after.glance path = fs.glance path)
    (reads : fs.read path = .ok content) : after.read path = .ok content := by
  have present := isPresent_of_read reads
  have presentAfter := (isPresent_of_glance same).trans present
  rw [glance, glance, presentAfter, present, if_pos rfl, if_pos rfl, reads] at same
  exact Option.some.inj same

/-- No component on the way to the name is too long for a directory. -/
def Fits (front name : String) : Prop :=
  ∀ comp ∈ name :: Path.folderOf front, comp.utf8ByteSize ≤ maxName

/-- What is found at a path in the directory of a front is the same. In a directory that was made
meanwhile a name can be found to be too long instead of missing. -/
structure Unchanged (fs after : FileSystem) (front path name : String) : Prop where
  glance : after.glance path = fs.glance path
  read : (fs.homeOf front = .error .noEntry → Fits front name) → after.read path = fs.read path

theorem Unchanged.refl (fs : FileSystem) : Unchanged fs fs front path name :=
  ⟨rfl, fun _ => rfl⟩

theorem Unchanged.trans (first : Unchanged fs middle front path name)
    (missing : middle.homeOf front = .error .noEntry → fs.homeOf front = .error .noEntry)
    (second : Unchanged middle after front path name) : Unchanged fs after front path name where
  glance := second.glance.trans first.glance
  read fits := (second.read (fits ∘ missing)).trans (first.read fits)

/-- There are no symbolic links, and no temporary file has a second name in its directory. -/
structure Tidy (fs : FileSystem) : Prop where
  flat : fs.Flat
  single : ∀ dir front name id, fs.child? dir (Part.temporary.name front) = some id →
    fs.child? dir name = some id → name = Part.temporary.name front

/-- A change spares the names of a kind if it shows under none of them that saving does not show
under, and saving still does not. It keeps the files tidy, too, and the directory where it is. -/
structure Spares (fs after : FileSystem) (front : String) (watched : String → Prop) : Prop where
  names : ∀ path name, Path.Names path (Path.isAbsolute front) (Path.folderOf front) name →
    watched name → fs.Aside front name → after.Aside front name ∧ Unchanged fs after front path name
  tidy : fs.Tidy → after.Tidy
  missing : after.homeOf front = .error .noEntry → fs.homeOf front = .error .noEntry

theorem Spares.refl {watched : String → Prop} : Spares fs fs front watched :=
  ⟨fun _ _ _ _ aside => ⟨aside, Unchanged.refl fs⟩, id, id⟩

theorem Spares.trans {watched : String → Prop} (first : Spares fs middle front watched)
    (second : Spares middle after front watched) : Spares fs after front watched := by
  refine ⟨fun path name names isWatched aside => ?_, second.tidy ∘ first.tidy,
    first.missing ∘ second.missing⟩
  obtain ⟨asideMiddle, unchanged⟩ := first.names path name names isWatched aside
  obtain ⟨asideAfter, later⟩ := second.names path name names isWatched asideMiddle
  exact ⟨asideAfter, unchanged.trans first.missing later⟩

theorem Spares.mono {watched fewer : String → Prop} (spares : Spares fs after front watched)
    (less : ∀ name, fewer name → watched name) : Spares fs after front fewer :=
  ⟨fun path name names isWatched => spares.names path name names (less name isWatched), spares.tidy,
    spares.missing⟩

/-! ## Changes made by a save -/

/-- A change of the names `spots` and of the contents of `files`. The names are among the three of the
front, or free where the temporary file is to be made; none of them is that of a directory. What they
stand for afterwards is a new file, under one name, or what another part of the front stood for. -/
structure Alters (fs after : FileSystem) (front : String) (folder : Folder) (spots : Spot → Prop)
    (files : ObjectId → Prop) : Prop where
  sound : after.Sound
  kept : Kept fs after
  names : ∀ spot, ¬ spots spot → SameChild fs after spot
  contents : ∀ id < fs.next, ¬ files id → after.content? id = fs.content? id
  loose : ∀ spot, spots spot → ¬ fs.IsFixed spot
  known : ∀ spot, spots spot → (∃ part : Part, spot = (folder.dir, part.name front)) ∨
    ∃ above, fs.walkOn true folder [Part.temporary.name front] =
      .ok (.entry spot.1 above spot.2 none)
  written : ∀ id, files id → ∃ place,
    fs.walkOn true folder [Part.temporary.name front] = .ok place ∧ place.target? = some id
  shapes : ∀ id, fs.next ≤ id → after.shape? id = none ∨ after.shape? id = some .file
  origin : ∀ spot id, spots spot → after.child? spot.1 spot.2 = some id →
    (fs.next ≤ id ∧ ∀ other, spots other → other = spot) ∨
    ∃ source dest : Part, dest ≠ .temporary ∧ spot = (folder.dir, dest.name front) ∧
      fs.child? folder.dir (source.name front) = some id ∧
      (source = .temporary → after.child? folder.dir (source.name front) = none)

/-- Where the temporary file is after a change: where it was, in a new file, or gone. -/
def Moves (fs after : FileSystem) (front : String) (folder : Folder) : Prop :=
  ∀ place, after.walkOn true folder [Part.temporary.name front] = .ok place →
    fs.walkOn true folder [Part.temporary.name front] = .ok place ∨
    (∃ id, place.target? = some id ∧ fs.next ≤ id) ∨
    (place = .entry folder.dir folder.above (Part.temporary.name front) none ∧
      ¬ fs.IsFixed (folder.dir, Part.temporary.name front))

namespace Alters

variable {spots : Spot → Prop} {files : ObjectId → Prop}

theorem fixed (alters : fs.Alters after front folder spots files) (sound : fs.Sound)
    (isFixed : fs.IsFixed spot) : after.IsFixed spot := by
  obtain ⟨id, child, isDir⟩ := isFixed
  have same := alters.names spot fun changed => alters.loose spot changed ⟨id, child, isDir⟩
  have below := sound.child _ _ _ child
  exact ⟨id, same.trans child, (isDirectoryId_congr (alters.kept.shape id below)).trans isDir⟩

/-- A temporary file gets no second name. -/
theorem tidy (alters : fs.Alters after front folder spots files) (sound : fs.Sound)
    (before : fs.Tidy) : after.Tidy := by
  refine ⟨fun id target isLink => ?_, fun dir other name id temporary taken => ?_⟩
  · rcases Nat.lt_or_ge id fs.next with below | above
    · rw [alters.kept.shape id below] at isLink
      exact before.flat id target isLink
    · rcases alters.shapes id above with none | isFile
      · rw [none] at isLink
        cases isLink
      · rw [isFile] at isLink
        cases isLink
  · by_cases temporaryChanged : spots (dir, Part.temporary.name other)
    · rcases alters.origin _ id temporaryChanged temporary with ⟨above, only⟩ |
        ⟨source, dest, notTemporary, same, _⟩
      · by_cases changed : spots (dir, name)
        · exact (Prod.mk.inj (only _ changed)).2
        · have old := (alters.names _ changed).symm.trans taken
          exact absurd (sound.child _ _ _ old) (Nat.not_lt.mpr above)
      · exact (notTemporary (Part.name_inj (Prod.mk.inj same).2).1.symm).elim
    · have old := (alters.names _ temporaryChanged).symm.trans temporary
      by_cases changed : spots (dir, name)
      · rcases alters.origin _ id changed taken with ⟨above, _⟩ |
          ⟨source, dest, _, spot, sourceTaken, gone⟩
        · exact absurd (sound.child _ _ _ old) (Nat.not_lt.mpr above)
        · cases (Prod.mk.inj spot).1
          have same := before.single _ other _ id old sourceTaken
          have free := gone (Part.name_inj same).1
          rw [same, temporary] at free
          cases free
      · exact before.single dir other name id old ((alters.names _ changed).symm.trans taken)

section Way

variable (alters : fs.Alters after front folder spots files) (sound : fs.Sound)
  (home : fs.homeOf front = .ok folder) (apart : fs.Apart front folder)

include alters sound home apart

/-- The way to the directory stays: all names on it are taken, and none of the three could change. -/
theorem way : after.homeOf front = .ok folder ∧ after.wayTo front = fs.wayTo front := by
  have within := start_within sound (Path.isAbsolute front)
  obtain ⟨_, inside, passable⟩ := lead_cases sound within home
  have same : ∀ spot ∈ fs.wayTo front, SameChild fs after spot := by
    intro spot member
    refine alters.names spot fun changed => ?_
    rcases alters.known spot changed with ⟨part, rfl⟩ | ⟨above, ends⟩
    · exact alters.loose _ changed (apart.way part member)
    · obtain ⟨id, taken, _⟩ := passable spot member
      have free := (walkOn_ends sound inside ends).2.1
      rw [free] at taken
      cases taken
  have start := start_congr alters.kept (Path.isAbsolute front)
  refine ⟨?_, ?_⟩
  · rw [homeOf, FileSystem.home, start, lead_congr sound alters.kept within same]
    exact home
  · rw [wayTo, start]
    exact visits_congr sound alters.kept within same

end Way

section Names

variable (alters : fs.Alters after front folder spots files)

include alters

/-- A change shows under no other name that writing the temporary file does not show under. -/
theorem avoids (clear : fs.Clear front folder name)
    (own : ∀ part : Part, spots (folder.dir, part.name front) → name ≠ part.name front) :
    ¬ spots (folder.dir, name) ∧ ∀ spot ∈ fs.linked folder name, ¬ spots spot := by
  refine ⟨fun changed => ?_, fun spot member changed => ?_⟩
  · rcases alters.known _ changed with ⟨part, same⟩ | ⟨above, ends⟩
    · rw [same] at changed
      exact own part changed (Prod.mk.inj same).2
    · exact (clear.free _ _ _ ends).1 rfl
  · rcases alters.known _ changed with ⟨part, rfl⟩ | ⟨above, ends⟩
    · exact alters.loose _ changed (clear.steady part member)
    · exact (clear.free _ _ _ ends).2 member

variable (sound : fs.Sound) (within : fs.Within folder.dir folder.above)

include sound within

theorem linked (own : ¬ spots (folder.dir, name))
    (behind : ∀ spot ∈ fs.linked folder name, ¬ spots spot) :
    after.linked folder name = fs.linked folder name := by
  have child : after.child? folder.dir name = fs.child? folder.dir name := alters.names _ own
  unfold FileSystem.linked at behind ⊢
  rw [child]
  cases taken : fs.child? folder.dir name with
  | none => rfl
  | some id =>
      rw [taken] at behind
      have same := beyond_congr looking sound alters.kept within (sound.child _ _ _ taken)
        fun spot member => alters.names spot (behind spot member)
      exact congrArg (Option.getD · []) same

theorem walkOn (dot : name ≠ ".") (dots : name ≠ "..") (own : ¬ spots (folder.dir, name))
    (behind : ∀ spot ∈ fs.linked folder name, ¬ spots spot) :
    after.walkOn true folder [name] = fs.walkOn true folder [name] := by
  refine walkOn_congr sound alters.kept within fun spot member => alters.names spot ?_
  rcases mem_visits_name dot dots member with rfl | later
  · exact own
  · exact behind spot later

/-- Saving still does not show under the name. -/
theorem clear (dot : name ≠ ".") (dots : name ≠ "..") (clear : fs.Clear front folder name)
    (own : ∀ part : Part, spots (folder.dir, part.name front) → name ≠ part.name front)
    (moves : fs.Moves after front folder) (differ : name ≠ Part.temporary.name front) :
    after.Clear front folder name := by
  obtain ⟨stays, behind⟩ := alters.avoids clear own
  have linked := alters.linked sound within stays behind
  have walk := alters.walkOn sound within dot dots stays behind
  refine ⟨fun part member => ?_, fun dir above spot ends => ?_, fun mine others id ends endsOther
    target => ?_⟩
  · rw [linked] at member
    exact alters.fixed sound (clear.steady part member)
  · rw [linked]
    rcases moves _ ends with same | ⟨id, target, _⟩ | ⟨same, loose⟩
    · exact clear.free dir above spot same
    · cases target
    · cases same
      refine ⟨fun same => ?_, fun member => loose (clear.steady Part.temporary member)⟩
      cases same
      exact differ rfl
  · rw [walk] at ends
    rcases moves _ endsOther with same | ⟨new, targetOther, above⟩ | ⟨rfl, _⟩
    · exact clear.object mine others id ends same target
    · have below := (walkOn_ends sound within ends).target_lt sound target
      rw [targetOther]
      intro same
      cases same
      exact absurd below (Nat.not_lt.mpr above)
    · intro same
      cases same

end Names

section Reading

variable (alters : fs.Alters after front folder spots files) (sound : fs.Sound)
  (home : fs.homeOf front = .ok folder) (apart : fs.Apart front folder)

include alters sound home apart

/-- A reader finds the same under a name that a walk from the directory does not look at the changed
names and files for. -/
theorem unchanged (names : Path.Names path (Path.isAbsolute front) (Path.folderOf front) name)
    (own : ¬ spots (folder.dir, name)) (behind : ∀ spot ∈ fs.linked folder name, ¬ spots spot)
    (contents : ∀ place id, fs.walkOn true folder [name] = .ok place → place.target? = some id →
      ¬ files id) :
    Unchanged fs after front path name := by
  obtain ⟨_, within, _⟩ := lead_cases sound (start_within sound _) home
  have homeAfter := (alters.way sound home apart).1
  have walk := alters.walkOn sound within names.dot names.dots own behind
  have located : after.locate true path = fs.locate true path := by
    refine locate_congr names (homeAfter.trans home.symm) fun reached reaches => ?_
    have same : reached = folder := Except.ok.inj (reaches.symm.trans home)
    rw [same]
    exact walk
  have reads : after.read path = fs.read path := by
    refine read_congr located fun id found => ?_
    obtain ⟨place, reached, reaches, ends, target⟩ := resolve_ok sound names found
    have same : reached = folder := Except.ok.inj (reaches.home.symm.trans home)
    subst same
    have below := (walkOn_ends sound within ends).target_lt sound target
    exact alters.contents id below (contents place id ends target)
  refine ⟨?_, fun _ => reads⟩
  rw [glance, glance, isPresent_congr located, reads]

theorem spares {watched : String → Prop}
    (own : ∀ name (part : Part), watched name → spots (folder.dir, part.name front) →
      name ≠ part.name front)
    (moves : fs.Moves after front folder)
    (others : ∀ name, watched name → name ≠ Part.temporary.name front) :
    Spares fs after front watched := by
  have homeAfter := (alters.way sound home apart).1
  have there (missing : after.homeOf front = .error .noEntry) : fs.homeOf front = .error .noEntry := by
    rw [homeAfter] at missing
    cases missing
  refine ⟨fun path name names isWatched aside => ?_, alters.tidy sound, there⟩
  obtain ⟨_, within, _⟩ := lead_cases sound (start_within sound _) home
  have clear := aside folder home
  have ownName := fun part => own name part isWatched
  obtain ⟨stays, behind⟩ := alters.avoids clear ownName
  refine ⟨fun reached reaches => ?_, alters.unchanged sound home apart names stays behind ?_⟩
  · rw [homeAfter] at reaches
    cases reaches
    exact alters.clear sound within names.dot names.dots clear ownName moves (others name isWatched)
  · intro place id ends target isFile
    obtain ⟨other, endsOther, targetOther⟩ := alters.written id isFile
    exact clear.object place other id ends endsOther target targetOther

/-- The names are still apart after a change that leaves the document alone. -/
theorem ready (own : ¬ spots (folder.dir, Part.document.name front))
    (moves : fs.Moves after front folder)
    (steady : after.Steady front folder (Part.temporary.name front)) :
    after.Ready front := by
  obtain ⟨_, within, _⟩ := lead_cases sound (start_within sound _) home
  obtain ⟨homeAfter, way⟩ := alters.way sound home apart
  have names := Part.document.names front
  refine ⟨alters.sound, fun missing => ?_, fun reached reaches => ?_⟩
  · rw [homeAfter] at missing
    cases missing
  rw [homeAfter] at reaches
  cases reaches
  refine ⟨fun part member => ?_, steady, ?_⟩
  · rw [way] at member
    exact alters.fixed sound (apart.way part member)
  · refine alters.clear sound within names.dot names.dots apart.document (fun part changed same => ?_)
      moves (Part.name_ne (by decide) front)
    rw [same] at own
    exact own changed

end Reading

end Alters

/-! ## Tidy files -/

namespace Flat

/-- Saving shows under no other name than the temporary one and those that the temporary file has
besides. -/
theorem clear (flat : fs.Flat) (isDir : fs.isDirectoryId folder.dir = true) (dot : name ≠ ".")
    (dots : name ≠ "..") (lasting : name ≠ Part.temporary.name front)
    (separate : ∀ id, fs.child? folder.dir name = some id →
      fs.child? folder.dir (Part.temporary.name front) ≠ some id) :
    fs.Clear front folder name := by
  have temporary := Part.temporary.names front
  refine ⟨fun part member => ?_, fun dir above spot ends => ?_, fun mine others id ends endsOther
    target => ?_⟩
  · rw [flat.linked] at member
    exact (List.not_mem_nil member).elim
  · have atName := flat.walkOn_ok isDir temporary.dot temporary.dots ends
    simp only [Place.entry.injEq] at atName
    rw [flat.linked, atName.1, atName.2.2.1]
    exact ⟨fun same => lasting (Prod.mk.inj same).2.symm, List.not_mem_nil⟩
  · rw [flat.walkOn_ok isDir dot dots ends] at target
    rw [flat.walkOn_ok isDir temporary.dot temporary.dots endsOther]
    exact separate id target

/-- Files without symbolic links are ready for a save if the temporary name is no second name of the
document. -/
theorem ready (flat : fs.Flat) (sound : fs.Sound)
    (missing : fs.homeOf front = .error .noEntry → ".." ∉ Path.folderOf front)
    (separate : ∀ folder id, fs.homeOf front = .ok folder →
      fs.child? folder.dir (Part.document.name front) = some id →
      fs.child? folder.dir (Part.temporary.name front) ≠ some id) :
    fs.Ready front := by
  refine ⟨sound, missing, fun folder home => ?_⟩
  obtain ⟨isDir, _, passable⟩ := lead_cases sound (start_within sound _) home
  have names := Part.document.names front
  refine ⟨fun part member => ?_, fun part member => ?_, ?_⟩
  · obtain ⟨id, taken, isDir | ⟨target, isLink⟩⟩ := passable _ member
    · exact ⟨id, taken, isDir⟩
    · exact (flat id target isLink).elim
  · rw [flat.linked] at member
    exact (List.not_mem_nil member).elim
  · exact flat.clear isDir names.dot names.dots (Part.name_ne (by decide) front)
      fun id => separate folder id home

end Flat

namespace Tidy

/-- Files are tidy if no directory lists an object twice. -/
theorem of_objects (flat : fs.Flat) (single : ∀ pair ∈ fs.objects, ∀ left ∈ pair.2.entries,
    ∀ right ∈ pair.2.entries, left.2 = right.2 → right.1 = left.1) : fs.Tidy := by
  refine ⟨flat, fun dir front name id temporary taken => ?_⟩
  obtain ⟨object, found, left⟩ := mem_entries_of_child? temporary
  obtain ⟨other, foundToo, right⟩ := mem_entries_of_child? taken
  cases found.symm.trans foundToo
  exact single _ (mem_of_lookup found) _ left _ right rfl

/-- In tidy files only the temporary name is in the way of a save. -/
theorem aside (tidy : fs.Tidy) (sound : fs.Sound)
    (names : Path.Names path (Path.isAbsolute front) (Path.folderOf front) name)
    (differ : name ≠ Part.temporary.name front) : fs.Aside front name := by
  intro folder home
  obtain ⟨isDir, _, _⟩ := lead_cases sound (start_within sound _) home
  exact tidy.flat.clear isDir names.dot names.dots differ fun id taken temporary =>
    differ (tidy.single folder.dir front name id temporary taken)

theorem ready (tidy : fs.Tidy) (sound : fs.Sound)
    (missing : fs.homeOf front = .error .noEntry → ".." ∉ Path.folderOf front) : fs.Ready front :=
  tidy.flat.ready sound missing fun folder id _ document temporary =>
    Part.name_ne (by decide) front (tidy.single folder.dir front _ id temporary document)

end Tidy

end FileSystem

end NetplanEditor
