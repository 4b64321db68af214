import NetplanEditor.Proofs.Routine.Faults
import NetplanEditor.Proofs.Store.Steps

/-!
# Every moment of a save

A save keeps `Safe` from its first call to its last, whichever of its calls fail: the files stay ready
for another save, the names that it must not touch are spared, and the document is complete, with its
old content before the renaming and the new text from then on. The parts of a save are gone through
in the order in which they run.
-/

namespace NetplanEditor

namespace FileStore

open FileSystem (Spares Lasting Beside Outside Unchanged Ending Atomic Told)
open Routine (Keeps)

variable {start fs after : FileSystem} {front path name : String} {folder : Folder}
  {text old : ByteArray} {reliable renamed : Bool} {document : Document}

/-- The names that a save must not show under: that of the document until it is renamed to, and that
of the backup if there is no document to keep. -/
structure Watched (start : FileSystem) (front : String) (renamed : Bool) (name : String) : Prop where
  lasting : Lasting front name
  document : renamed = true → name ≠ Part.document.name front
  backup : name = Part.backup.name front → start.isPresent (Part.document.path front) = false

/-- What holds at every moment of a save. -/
structure Safe (start : FileSystem) (front : String) (text : ByteArray) (renamed : Bool)
    (fs : FileSystem) : Prop where
  ready : fs.Ready front
  spares : Spares start fs front (Watched start front renamed)
  document : renamed = true → fs.read (Part.document.path front) = .ok text

/-- What holds when a save is over: whether the renaming was carried out is what it reports. -/
structure Over (reliable : Bool) (start : FileSystem) (front : String)
    (value : Except SaveError Unit) (renamed : Bool) (fs : FileSystem) : Prop where
  reports : value.isOk = renamed
  gone : value = .ok () →
    fs.resolve false (Part.temporary.path front) = .error (.numbered .noEntry)
  backup : value = .ok () → reliable = true → ∀ old,
    start.read (Part.document.path front) = .ok old → fs.read (Part.backup.path front) = .ok old

theorem Over.error (cause : SaveError) : Over reliable start front (.error cause) false fs :=
  ⟨rfl, fun same => (by cases same), fun same => (by cases same)⟩

/-! ## The document before the renaming -/

namespace Safe

theorem start_safe (ready : start.Ready front) : Safe start front text false start :=
  ⟨ready, Spares.refl, fun none => by cases none⟩

/-- A change that spares the names spared so far keeps a save safe. -/
theorem step (safe : Safe start front text false fs) (ready : after.Ready front)
    (spares : Spares fs after front (Watched start front false)) :
    Safe start front text false after :=
  ⟨ready, safe.spares.trans spares, fun none => by cases none⟩

theorem step_lasting (safe : Safe start front text false fs)
    (step : after.Ready front ∧ Spares fs after front (Lasting front)) :
    Safe start front text false after :=
  safe.step step.1 (step.2.mono fun _ watched => watched.lasting)

/-- The document is as it was. -/
theorem unchanged (ready : start.Ready front) (safe : Safe start front text false fs) :
    Unchanged start fs front (Part.document.path front) (Part.document.name front) := by
  refine (safe.spares.names _ _ (Part.document.names front) ⟨?_, ?_, ?_⟩ ready.aside).2
  · exact Part.name_ne (by decide) front
  · exact fun none => by cases none
  · exact fun same => (Part.name_ne (by decide) front same).elim

theorem isPresent (ready : start.Ready front) (safe : Safe start front text false fs) :
    fs.isPresent (Part.document.path front) = start.isPresent (Part.document.path front) :=
  FileSystem.isPresent_of_glance (safe.unchanged ready).glance

theorem read (ready : start.Ready front) (safe : Safe start front text false fs)
    (reads : start.read (Part.document.path front) = .ok old) :
    fs.read (Part.document.path front) = .ok old :=
  FileSystem.read_of_glance (safe.unchanged ready).glance reads

/-- The backup may change where there is a document to keep. -/
theorem step_beside (safe : Safe start front text false fs)
    (present : start.isPresent (Part.document.path front) = true) (ready : after.Ready front)
    (spares : Spares fs after front (Beside front)) : Safe start front text false after := by
  refine safe.step ready (spares.mono fun name watched => ⟨watched.lasting, fun same => ?_⟩)
  rw [watched.backup same] at present
  cases present

end Safe

/-! ## Making the directory -/

/-- What holds while the directory is made: all names but the temporary one are spared. -/
def Prepared (start : FileSystem) (front : String) (fs : FileSystem) : Prop :=
  fs.Ready front ∧ Spares start fs front (Lasting front)

theorem Prepared.step (prepared : Prepared start front fs) (step : Prepared fs front after) :
    Prepared start front after :=
  ⟨step.1, prepared.2.trans step.2⟩

theorem keeps_settle (prepared : Prepared start front fs) (answer : Except SystemError Unit) :
    Keeps reliable (fun renamed seen => renamed = false ∧ Prepared start front seen)
      (fun _ _ _ => True) (makeDirectories.settle path answer) false fs := by
  cases answer with
  | ok => exact Keeps.done ⟨rfl, prepared⟩ trivial
  | error cause =>
      exact Keeps.isDirectory ⟨rfl, prepared⟩ fun there => Keeps.done ⟨rfl, prepared⟩ trivial

/-- The path leads along the first components of the directory. -/
def Leads (front path : String) : Prop :=
  Path.isAbsolute path = Path.isAbsolute front ∧
    ∃ rest, Path.folderOf front = Path.components path ++ rest

theorem Prepared.makeDirectory (prepared : Prepared start front fs) (leads : Leads front path)
    {answer : Except SystemError Unit} (ending : Atomic fs (fs.makeDirectory path) answer after) :
    Prepared start front after := by
  obtain ⟨absolute, rest, split⟩ := leads
  rcases ending.cases with ⟨_, ok⟩ | ⟨_, _, rfl | none, _⟩
  · exact prepared.step (prepared.1.makeDirectory absolute split ok)
  · exact prepared
  · exact none.elim

theorem keeps_makeDirectories (paths : List String)
    (leads : ∀ path ∈ paths, path ≠ "" → Leads front path) (prepared : Prepared start front fs) :
    Keeps reliable (fun renamed seen => renamed = false ∧ Prepared start front seen)
      (fun _ _ _ => True) (makeDirectories paths) false fs := by
  induction paths generalizing fs with
  | nil => exact Keeps.done ⟨rfl, prepared⟩ trivial
  | cons path above ih =>
      rw [makeDirectories]
      split
      · exact Keeps.done ⟨rfl, prepared⟩ trivial
      next nonempty =>
        have leadsHere := leads path List.mem_cons_self (by simpa using nonempty)
        refine Keeps.makeDirectory ⟨rfl, prepared⟩ fun answer after ending => ?_
        have preparedAfter := prepared.makeDirectory leadsHere ending
        cases answer with
        | ok => exact Keeps.done ⟨rfl, preparedAfter⟩ trivial
        | error cause =>
            dsimp only
            split
            · have first := ih (fun path member => leads path (List.mem_cons_of_mem _ member))
                preparedAfter
              refine Keeps.bind first ?_
              rintro value _ later _ ⟨rfl, preparedLater⟩
              cases value with
              | error cause => exact Keeps.done ⟨rfl, preparedLater⟩ trivial
              | ok =>
                  refine Keeps.makeDirectory ⟨rfl, preparedLater⟩ fun answer last ending => ?_
                  exact keeps_settle (preparedLater.makeDirectory leadsHere ending) answer
            · exact keeps_settle preparedAfter _

theorem keeps_prepared (prepared : Prepared start front fs) :
    Keeps reliable (fun renamed seen => renamed = false ∧ Prepared start front seen)
      (fun _ _ _ => True) (prepare (Part.document.path front)) false fs := by
  unfold prepare
  split
  · exact Keeps.done ⟨rfl, prepared⟩ trivial
  next parent isParent =>
    refine Keeps.bind (keeps_makeDirectories _ (fun path member nonempty => ?_) prepared) ?_
    · split at member
      · exact (List.not_mem_nil member).elim
      · exact (Part.document.names front).ancestor isParent member nonempty
    · rintro value _ later _ ⟨rfl, preparedLater⟩
      cases value with
      | error cause => exact Keeps.done ⟨rfl, preparedLater⟩ trivial
      | ok => exact Keeps.done ⟨rfl, preparedLater⟩ trivial

theorem keeps_prepare (safe : Safe start front text false fs) :
    Keeps reliable (Safe start front text) (fun _ renamed _ => renamed = false)
      (prepare (Part.document.path front)) false fs := by
  refine (keeps_prepared ⟨safe.ready, Spares.refl⟩).mono ?_ fun _ _ _ kept _ => kept.1
  rintro _ seen ⟨rfl, prepared⟩
  exact safe.step_lasting prepared

/-! ## Keeping the old document -/

/-- The temporary file is staged and the old document is still in place. -/
structure Pending (start : FileSystem) (front : String) (folder : Folder) (text : ByteArray)
    (fs : FileSystem) : Prop where
  safe : Safe start front text false fs
  staged : fs.Staged front folder text

/-- What holds when the old document has been backed up, or could not be. -/
structure Kept (reliable : Bool) (start : FileSystem) (front : String) (folder : Folder)
    (text : ByteArray) (value : Except SaveError Unit) (renamed : Bool) (fs : FileSystem) :
    Prop where
  before : renamed = false
  staged : value = .ok () → fs.Staged front folder text
  backup : value = .ok () → reliable = true → ∀ old,
    start.read (Part.document.path front) = .ok old → fs.BackedUp front folder old

theorem Kept.error (cause : SaveError) :
    Kept reliable start front folder text (.error cause) false fs :=
  ⟨rfl, fun same => (by cases same), fun same => (by cases same)⟩

section Backup

variable (ready : start.Ready front)
  (present : start.isPresent (Part.document.path front) = true)

include present

include ready in
theorem Pending.link (pending : Pending start front folder text fs)
    (ok : fs.link (Part.document.path front) (Part.backup.path front) = .ok after) :
    Pending start front folder text after ∧
      ∀ old, start.read (Part.document.path front) = .ok old → after.BackedUp front folder old := by
  obtain ⟨staged, spares, backedUp⟩ := pending.staged.link ok
  exact ⟨⟨pending.safe.step_beside present staged.ready spares, staged⟩,
    fun old reads => backedUp old (pending.safe.read ready reads)⟩

theorem Pending.write {content : ByteArray} (pending : Pending start front folder text fs)
    (free : fs.child? folder.dir (Part.backup.name front) = none)
    (ok : fs.write (Part.backup.path front) content = .ok after) :
    Pending start front folder text after ∧ after.BackedUp front folder content := by
  obtain ⟨staged, spares, backedUp⟩ := pending.staged.write free ok
  exact ⟨⟨pending.safe.step_beside present staged.ready spares, staged⟩, backedUp⟩

theorem Pending.copiesPart (pending : Pending start front folder text fs)
    (free : fs.child? folder.dir (Part.backup.name front) = none)
    (partly : fs.CopiesPart (Part.document.path front) (Part.backup.path front) after) :
    Safe start front text false after := by
  obtain ⟨content, _, size, ok⟩ := partly
  exact (pending.write present free ok).1.safe

include ready

theorem keeps_keep (pending : Pending start front folder text fs)
    (free : fs.child? folder.dir (Part.backup.name front) = none) :
    Keeps reliable (Safe start front text) (Kept reliable start front folder text)
      (keep (Part.document.path front) (Part.backup.path front)) false fs := by
  have kept {fs : FileSystem} (pending : Pending start front folder text fs)
      (backedUp : ∀ old, start.read (Part.document.path front) = .ok old →
        fs.BackedUp front folder old) (events : List LogEvent) :
      Keeps reliable (Safe start front text) (Kept reliable start front folder text)
        (do MonadLog.logAll events; return .ok ()) false fs := by
    refine Keeps.logged pending.safe events (Keeps.done pending.safe ?_)
    exact ⟨rfl, fun _ => pending.staged, fun _ _ => backedUp⟩
  unfold keep
  refine Keeps.link pending.safe fun answer after ending => ?_
  rcases ending.cases with ⟨rfl, ok⟩ | ⟨cause, rfl, rfl | none, _⟩
  · obtain ⟨pendingAfter, backedUp⟩ := pending.link ready present ok
    exact kept pendingAfter backedUp _
  · refine Keeps.log pending.safe (Keeps.copy pending.safe (fun inside partly => ?_)
      fun answer after ending => ?_)
    · exact pending.copiesPart present free partly
    rcases ending.cases with ⟨rfl, ok⟩ | ⟨cause, rfl, rfl | partly, _⟩
    · obtain ⟨content, reads, ok⟩ := FileSystem.copy_ok ok
      obtain ⟨pendingAfter, backedUp⟩ := pending.write present free ok
      refine kept pendingAfter (fun old isOld => ?_) _
      have same := reads.symm.trans (pending.safe.read ready isOld)
      cases same
      exact backedUp
    · exact Keeps.done pending.safe (Kept.error _)
    · exact Keeps.done (pending.copiesPart present free partly) (Kept.error _)
  · exact none.elim

omit present in
theorem keeps_backUp (pending : Pending start front folder text fs) :
    Keeps reliable (Safe start front text) (Kept reliable start front folder text)
      (backUp (Part.document.path front)) false fs := by
  unfold backUp
  rw [Part.document_backup]
  refine Keeps.isPresent pending.safe fun answer told => ?_
  cases answer with
  | false =>
      refine Keeps.done pending.safe ⟨rfl, fun _ => pending.staged, fun _ isReliable old reads => ?_⟩
      have present := FileSystem.isPresent_of_read (pending.safe.read ready reads)
      rcases told with truth | ⟨unreliable, _⟩
      · rw [present] at truth
        cases truth
      · rw [isReliable] at unreliable
        cases unreliable
  | true =>
      have present : start.isPresent (Part.document.path front) = true := by
        rcases told with truth | ⟨_, none⟩
        · rw [← pending.safe.isPresent ready, ← truth]
        · cases none
      refine Keeps.remove pending.safe fun answer after ending => ?_
      rcases ending.cases with ⟨rfl, ok⟩ | ⟨cause, rfl, rfl | none, notFound⟩
      · obtain ⟨staged, spares, free⟩ := pending.staged.remove ok
        have safe := pending.safe.step_beside present staged.ready spares
        exact keeps_keep ready present ⟨safe, staged⟩ free
      · dsimp only
        split
        next missing =>
          have reaches := pending.staged.opens.reaches Part.backup
          have free := FileSystem.remove_not_found (Part.backup.names front) reaches
            (notFound missing).1 missing
          exact keeps_keep ready present pending free
        next => exact Keeps.done pending.safe (Kept.error _)
      · exact none.elim

end Backup

/-! ## Putting the new document in place -/

theorem keeps_putInPlace (pending : Pending start front folder text fs)
    (backedUp : reliable = true → ∀ old, start.read (Part.document.path front) = .ok old →
      fs.BackedUp front folder old) :
    Keeps reliable (Safe start front text) (Over reliable start front)
      (putInPlace (Part.temporary.path front) (Part.document.path front)) false fs := by
  refine Keeps.rename pending.safe fun answer after ending => ?_
  rcases ending.cases with ⟨rfl, ok⟩ | ⟨cause, rfl, rfl | none, _⟩
  · obtain ⟨ready, spares, reads, gone⟩ := pending.staged.rename ok
    have before : Spares start fs front (Watched start front true) :=
      pending.safe.spares.mono fun name watched =>
        ⟨watched.lasting, fun none => (by cases none), watched.backup⟩
    have after : Spares fs after front (Watched start front true) :=
      spares.mono fun name watched => ⟨watched.lasting, watched.document rfl⟩
    refine Keeps.done ⟨ready, before.trans after, fun _ => reads⟩ ⟨rfl, fun _ => gone, ?_⟩
    exact fun _ isReliable old isOld =>
      pending.staged.rename_backup (backedUp isReliable old isOld) ok
  · exact Keeps.done pending.safe (Over.error _)
  · exact none.elim

theorem keeps_replace (ready : start.Ready front) (pending : Pending start front folder text fs) :
    Keeps reliable (Safe start front text) (Over reliable start front)
      (replace (Part.temporary.path front) (Part.document.path front)) false fs := by
  unfold replace
  refine Keeps.bind (keeps_backUp ready pending) fun value renamed later kept safe => ?_
  obtain rfl := kept.before
  cases value with
  | error cause => exact Keeps.done safe (Over.error cause)
  | ok => exact keeps_putInPlace ⟨safe, kept.staged rfl⟩ (kept.backup rfl)

theorem keeps_discard (safe : Safe start front text false fs) :
    Keeps reliable (Safe start front text) (fun _ renamed _ => renamed = false)
      (discard (Part.temporary.path front)) false fs := by
  refine Keeps.remove safe fun answer after ending => ?_
  rcases ending.cases with ⟨rfl, ok⟩ | ⟨cause, rfl, rfl | none, _⟩
  · exact Keeps.done (safe.step_lasting (safe.ready.discard ok)) rfl
  · exact Keeps.logAll safe rfl _
  · exact none.elim

theorem keeps_writeText {content : String} (ready : start.Ready front)
    (safe : Safe start front content.toUTF8 false fs) :
    Keeps reliable (Safe start front content.toUTF8) (Over reliable start front)
      (writeText (Part.document.path front) content) false fs := by
  have partly {inside : FileSystem}
      (ok : fs.WritesPart (Part.temporary.path front) content.toUTF8 inside) :
      Safe start front content.toUTF8 false inside := by
    obtain ⟨size, ok⟩ := ok
    obtain ⟨folder, _, staged, spares⟩ := safe.ready.write ok
    exact safe.step_lasting ⟨staged.ready, spares⟩
  unfold writeText
  rw [Part.document_temporary]
  refine Keeps.write safe (fun inside ok => partly ok) fun answer after ending => ?_
  rcases ending.cases with ⟨rfl, ok⟩ | ⟨cause, rfl, rfl | ok, _⟩
  · obtain ⟨folder, _, staged, spares⟩ := safe.ready.write ok
    have safeAfter := safe.step_lasting ⟨staged.ready, spares⟩
    refine Keeps.bind (keeps_replace ready ⟨safeAfter, staged⟩) ?_
    intro value renamed later ended safe
    cases value with
    | ok =>
        obtain rfl := ended.reports
        exact Keeps.done safe ended
    | error cause =>
        obtain rfl := ended.reports
        refine Keeps.bind (keeps_discard safe) fun _ renamed last notRenamed safeLast => ?_
        subst notRenamed
        exact Keeps.done safeLast (Over.error cause)
  · exact Keeps.done safe (Over.error _)
  · exact Keeps.done (partly ok) (Over.error _)

/-- A save is safe at every moment, and what it reports is what has happened. -/
theorem keeps_save {content : String} (store : FileStore)
    (ready : start.Ready (store.front document.interface)) (renders : document.render = .ok content) :
    Keeps reliable (Safe start (store.front document.interface) content.toUTF8)
      (Over reliable start (store.front document.interface)) (store.save document) false start := by
  have safe : Safe start (store.front document.interface) content.toUTF8 false start :=
    Safe.start_safe ready
  unfold save
  rw [pathFor_eq, renders]
  refine Keeps.logged safe _ ?_
  refine Keeps.bind (keeps_prepare safe) fun value renamed later notRenamed safeLater => ?_
  subst notRenamed
  cases value with
  | error cause => exact Keeps.done safeLater (Over.error cause)
  | ok => exact keeps_writeText ready safeLater

/-- A document without a text is not saved at all. -/
theorem keeps_save_unwritable {cause : DocumentError} (store : FileStore)
    (fails : document.render = .error cause) :
    Keeps reliable (fun renamed fs => renamed = false ∧ fs = start)
      (fun value _ _ => value = .error (.unwritable cause)) (store.save document) false start := by
  unfold save
  rw [fails]
  exact Keeps.done ⟨rfl, rfl⟩ rfl

/-- What has happened when a save is over. -/
theorem save_over (store : FileStore) (ready : start.Ready (store.front document.interface))
    {value : Except SaveError Unit}
    (ends : Routine.Ends reliable start (store.save document) value after) :
    ∃ text, Safe start (store.front document.interface) text value.isOk after ∧
      Over reliable start (store.front document.interface) value value.isOk after ∧
      (value = .ok () → ∃ content, document.render = .ok content ∧ text = content.toUTF8) := by
  cases renders : document.render with
  | error cause =>
      obtain ⟨_, ⟨_, rfl⟩, rfl⟩ := (keeps_save_unwritable store renders).ends ends
      exact ⟨ByteArray.empty, Safe.start_safe ready, Over.error _, fun none => by cases none⟩
  | ok content =>
      obtain ⟨_, safe, ended⟩ := (keeps_save store ready renders).ends ends
      obtain rfl := ended.reports
      exact ⟨content.toUTF8, safe, ended, fun _ => ⟨content, rfl, rfl⟩⟩

end FileStore

end NetplanEditor
