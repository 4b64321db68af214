import NetplanEditor.Proofs.Store.Save

/-!
# Saving is atomic

Whoever looks at the path of a document while it is saved, or after the save was stopped, finds the
old content or the new text as a whole (`save_atomic`). A save that fails has not touched it, and the
files are ready for the next save in any case. A save succeeds if none of its calls has a reason to
fail (`save_succeeds`).
-/

namespace NetplanEditor

namespace FileStore

open FileSystem (Spares Beside)
open Routine (Keeps Sees Ends perform_ends)

variable {fs after : FileSystem} {front : String} {text : ByteArray} {document : Document}

/-! ## A save that succeeds -/

/-- The temporary file is staged, and where the document is to be there is a file or nothing. -/
structure Fair (front : String) (fs : FileSystem) : Prop where
  staged : ∃ folder text, fs.Staged front folder text
  isFile : ∀ cause, fs.glance (Part.document.path front) ≠ some (.error cause)

theorem Fair.glance (fair : Fair front fs) (spares : Spares fs after front (Beside front)) :
    after.glance (Part.document.path front) = fs.glance (Part.document.path front) := by
  obtain ⟨_, _, before⟩ := fair.staged
  exact (before.document_unchanged spares).glance

theorem Fair.step (fair : Fair front fs) (staged : ∃ folder text, after.Staged front folder text)
    (spares : Spares fs after front (Beside front)) : Fair front after :=
  ⟨staged, fair.glance spares ▸ fair.isFile⟩

theorem perform_logAll (world : World) (events : List LogEvent) :
    world.Alike (world.perform (Routine.logAll events)).2 := by
  induction events generalizing world with
  | nil => exact ⟨rfl, rfl⟩
  | cons event events ih =>
      obtain ⟨files, host⟩ := ih { world with events := world.events ++ [event] }
      exact ⟨files, host⟩

theorem perform_logged {α : Type} (world : World) (events : List LogEvent) (routine : Routine α) :
    (world.perform (do MonadLog.logAll events; routine)).1 = (world.perform routine).1 := by
  rw [World.perform_bind]
  exact ((perform_logAll world events).perform routine).1

theorem keep_succeeds (world : World) {folder : Folder}
    (staged : world.files.Staged front folder text) (fair : Fair front world.files)
    (present : world.files.isPresent (Part.document.path front) = true)
    (free : world.files.child? folder.dir (Part.backup.name front) = none) :
    (world.perform (keep (Part.document.path front) (Part.backup.path front))).1 = .ok () ∧
      Fair front
        (world.perform (keep (Part.document.path front) (Part.backup.path front))).2.files := by
  obtain ⟨after, ok⟩ := staged.link_succeeds fair.isFile present free
  obtain ⟨stagedAfter, spares, _⟩ := staged.link ok
  unfold keep World.perform
  rw [ok]
  dsimp only [World.change]
  rw [World.perform_bind]
  refine ⟨rfl, ?_⟩
  have logged := perform_logAll { world with files := after }
    [.debug s!"Previous document kept at {Part.backup.path front}"]
  exact logged.files ▸ fair.step ⟨_, _, stagedAfter⟩ spares

theorem backUp_succeeds (world : World) (fair : Fair front world.files)
    (removable : ∀ cause, world.files.remove (Part.backup.path front) = .error cause →
      cause.isNotFound = true) :
    (world.perform (backUp (Part.document.path front))).1 = .ok () ∧
      Fair front (world.perform (backUp (Part.document.path front))).2.files := by
  obtain ⟨folder, text, staged⟩ := fair.staged
  unfold backUp World.perform
  rw [Part.document_backup]
  cases present : world.files.isPresent (Part.document.path front) with
  | false => exact ⟨rfl, fair⟩
  | true =>
      simp only [Bool.not_true, Bool.false_eq_true, if_false, World.perform]
      cases removed : world.files.remove (Part.backup.path front) with
      | ok after =>
          obtain ⟨stagedAfter, spares, free⟩ := staged.remove removed
          have fairAfter := fair.step ⟨_, _, stagedAfter⟩ spares
          have same := FileSystem.isPresent_of_glance (fair.glance spares)
          exact keep_succeeds { world with files := after } stagedAfter fairAfter
            (same.trans present) free
      | error cause =>
          have missing := removable cause removed
          have free := FileSystem.remove_not_found (Part.backup.names front)
            (staged.opens.reaches Part.backup) removed missing
          simp only [World.change, missing, if_true]
          exact keep_succeeds world staged fair present free

theorem replace_succeeds (world : World) (fair : Fair front world.files)
    (removable : ∀ cause, world.files.remove (Part.backup.path front) = .error cause →
      cause.isNotFound = true) :
    (world.perform (replace (Part.temporary.path front) (Part.document.path front))).1 = .ok () := by
  obtain ⟨backedUp, fairAfter⟩ := backUp_succeeds world fair removable
  obtain ⟨folder, text, staged⟩ := fairAfter.staged
  obtain ⟨after, ok⟩ := staged.rename_succeeds fairAfter.isFile
  unfold replace
  rw [World.perform_bind, backedUp]
  unfold putInPlace World.perform
  rw [ok]
  rfl

theorem writeText_succeeds (world : World) {content : String} (ready : world.files.Ready front)
    (isFile : ∀ cause, world.files.glance (Part.document.path front) ≠ some (.error cause))
    {staged : FileSystem}
    (written : world.files.write (Part.temporary.path front) content.toUTF8 = .ok staged)
    (removable : ∀ cause, staged.remove (Part.backup.path front) = .error cause →
      cause.isNotFound = true) :
    (world.perform (writeText (Part.document.path front) content)).1 = .ok () := by
  obtain ⟨folder, _, isStaged, spares⟩ := ready.write written
  have same := (spares.names _ _ (Part.document.names front) (Part.name_ne (by decide) front)
    ready.aside).2.glance
  have replaced := replace_succeeds { world with files := staged }
    ⟨⟨_, _, isStaged⟩, same ▸ isFile⟩ removable
  unfold writeText World.perform
  rw [Part.document_temporary, written]
  dsimp only [World.change]
  rw [World.perform_bind, replaced]
  rfl

/-- A save succeeds if the directory can be made and the temporary file written there, if an old
backup can be removed, and if the document is a file or not there yet. -/
theorem save_succeeds (world : World) (store : FileStore) {content : String}
    (renders : document.render = .ok content)
    (ready : world.files.Ready (store.front document.interface))
    (isFile : ∀ cause, world.files.glance (store.pathFor document.interface) ≠ some (.error cause))
    (prepared : (world.perform (prepare (store.pathFor document.interface))).1 = .ok ())
    {staged : FileSystem}
    (written : (world.perform (prepare (store.pathFor document.interface))).2.files.write
      (store.pathFor document.interface ++ temporarySuffix) content.toUTF8 = .ok staged)
    (removable : ∀ cause, staged.remove (store.backupFor document.interface) = .error cause →
      cause.isNotFound = true) :
    (world.perform (store.save document)).1 = .ok () := by
  rw [pathFor_eq] at isFile prepared written
  rw [Part.document_temporary] at written
  rw [backupFor_eq] at removable
  have start : Safe world.files (store.front document.interface) content.toUTF8 false world.files :=
    Safe.start_safe ready
  obtain ⟨renamed, safe, notRenamed⟩ := (keeps_prepare start).ends (perform_ends world _)
  subst notRenamed
  have same := (safe.unchanged ready).glance
  rw [← same] at isFile
  unfold save
  rw [pathFor_eq, renders]
  dsimp only
  rw [perform_logged, World.perform_bind, prepared]
  exact writeText_succeeds _ safe.ready isFile written removable

/-! ## Every moment of a save -/

/-- The document has been replaced: the path has the new text, what could be read there is the backup
now, and the temporary name is free. -/
def Replaced (store : FileStore) (document : Document) (start after : FileSystem) : Prop :=
  ∃ content, document.render = .ok content ∧
    after.read (store.pathFor document.interface) = .ok content.toUTF8 ∧
    after.resolve false (store.pathFor document.interface ++ temporarySuffix) =
      .error (.numbered .noEntry) ∧
    ∀ old, start.read (store.pathFor document.interface) = .ok old →
      after.read (store.backupFor document.interface) = .ok old

/-- No call of the save has a reason to fail: the document has a text and its path is that of a file
or of nothing yet, its directory can be made and the temporary file be written there, and if there is
an old backup it can be removed. -/
def Unhindered (store : FileStore) (document : Document) (world : World) : Prop :=
  ∃ content staged, document.render = .ok content ∧
    (∀ cause, world.files.glance (store.pathFor document.interface) ≠ some (.error cause)) ∧
    (world.perform (prepare (store.pathFor document.interface))).1 = .ok () ∧
    (world.perform (prepare (store.pathFor document.interface))).2.files.write
      (store.pathFor document.interface ++ temporarySuffix) content.toUTF8 = .ok staged ∧
    ∀ cause, staged.remove (store.backupFor document.interface) = .error cause →
      cause.isNotFound = true

/-- Where the names of a document are apart, its path has the old content until the renaming and the
whole new text from then on, at every moment of a save in which any call may fail and which may stop
at any point. All that can be seen meanwhile is ready for another save. A save that fails has left
the path as it was, one that ends well has replaced the document, and so does one whose calls have no
reason to fail. -/
theorem save_atomic (store : FileStore) (document : Document) {start : FileSystem}
    (ready : start.Ready (store.front document.interface)) :
    (∀ renamed seen, Sees false start (store.save document) renamed seen →
      seen.Ready (store.front document.interface) ∧
      (renamed = false → seen.glance (store.pathFor document.interface) =
        start.glance (store.pathFor document.interface)) ∧
      (renamed = true → ∃ content, document.render = .ok content ∧
        seen.read (store.pathFor document.interface) = .ok content.toUTF8)) ∧
    (∀ error after, Ends false start (store.save document) (.error error) after →
      after.glance (store.pathFor document.interface) =
        start.glance (store.pathFor document.interface)) ∧
    (∀ after, Ends true start (store.save document) (.ok ()) after →
      Replaced store document start after) ∧
    ∀ world, world.files = start → Unhindered store document world →
      (world.perform (store.save document)).1 = .ok () ∧
        Replaced store document start (world.perform (store.save document)).2.files := by
  have names := store.pathFor_eq document.interface
  have whole {after : FileSystem} (ends : Ends true start (store.save document) (.ok ()) after) :
      Replaced store document start after := by
    obtain ⟨_, safe, ended, written⟩ := save_over store ready ends
    obtain ⟨content, renders, rfl⟩ := written rfl
    refine ⟨content, renders, ?_, ?_, fun old reads => ?_⟩
    · rw [names]
      exact safe.document rfl
    · rw [names, Part.document_temporary]
      exact ended.gone rfl
    · rw [names] at reads
      rw [backupFor_eq]
      exact ended.backup rfl rfl old reads
  refine ⟨fun renamed seen sees => ?_, fun error after ends => ?_, fun after ends => whole ends, ?_⟩
  · cases renders : document.render with
    | error cause =>
        obtain ⟨rfl, rfl⟩ := (keeps_save_unwritable store renders).sees sees
        exact ⟨ready, fun _ => rfl, fun none => (by cases none)⟩
    | ok content =>
        have safe := (keeps_save store ready renders).sees sees
        refine ⟨safe.ready, fun before => ?_, fun isRenamed => ⟨content, rfl, ?_⟩⟩
        · subst before
          rw [names]
          exact (safe.unchanged ready).glance
        · rw [names]
          exact safe.document isRenamed
  · obtain ⟨_, safe, _⟩ := save_over store ready ends
    rw [names]
    exact (safe.unchanged ready).glance
  · rintro world rfl ⟨content, staged, renders, isFile, prepared, written, removable⟩
    have done := save_succeeds world store renders ready isFile prepared written removable
    refine ⟨done, whole ?_⟩
    have ends := perform_ends world (store.save document)
    rw [done] at ends
    exact ends

/-- What a save leaves behind that was stopped while it wrote the temporary file, after an earlier one
was stopped before it renamed. -/
def interrupted : FileSystem where
  objects := [(0, .directory [("work", 1)]), (1, .directory [("etc", 2)]),
    (2, .directory [("90-eth0.yaml", 3), ("90-eth0.yaml.tmp", 4), ("90-eth0.yaml.bkp", 3)]),
    (3, .file "old".toUTF8 false), (4, .file "netw".toUTF8 false)]
  root := 0
  working := [1, 0]
  next := 5

theorem interrupted_ready :
    interrupted.Ready (FileStore.front ⟨"etc", "90-"⟩ "eth0") := by
  have sound : interrupted.Sound :=
    FileSystem.sound_of_objects (by decide) (by decide) (by decide)
  have flat : interrupted.Flat := .of_objects (by decide)
  have home : interrupted.homeOf (FileStore.front ⟨"etc", "90-"⟩ "eth0") = .ok ⟨40, 2, [1, 0]⟩ := by
    decide +kernel
  refine flat.ready sound (fun missing => ?_) fun folder id reached document => ?_
  · cases home.symm.trans missing
  · cases home.symm.trans reached
    have isDocument : interrupted.child? 2
        (Part.document.name (FileStore.front ⟨"etc", "90-"⟩ "eth0")) = some 3 := by decide +kernel
    cases isDocument.symm.trans document
    decide +kernel

/-- The next save after that succeeds, keeps the document and leaves nothing behind. -/
theorem save_atomic_interrupted :
    interrupted.Ready (FileStore.front ⟨"etc", "90-"⟩ "eth0") ∧
      ∃ world, world.files = interrupted ∧
        Unhindered ⟨"etc", "90-"⟩ (.skeleton "eth0") world ∧
        Replaced ⟨"etc", "90-"⟩ (.skeleton "eth0") interrupted
          (world.perform (FileStore.save ⟨"etc", "90-"⟩ (.skeleton "eth0"))).2.files := by
  let world : World := { files := interrupted, host := fun _ _ _ => .error .absent }
  have isFile : world.files.glance (FileStore.pathFor ⟨"etc", "90-"⟩ "eth0") =
      some (.ok "old".toUTF8) := by decide +kernel
  have unhindered : Unhindered ⟨"etc", "90-"⟩ (.skeleton "eth0") world := by
    refine ⟨_, _, rfl, fun cause same => ?_, rfl, rfl, fun cause fails => ?_⟩
    · cases isFile.symm.trans same
    · cases fails
  have atomic := save_atomic ⟨"etc", "90-"⟩ (.skeleton "eth0") interrupted_ready
  exact ⟨interrupted_ready, world, rfl, unhindered, (atomic.2.2.2 world rfl unhindered).2⟩

/-- Files in which the temporary name is a link to that of the backup. -/
def misled : FileSystem where
  objects := [(0, .directory [("work", 1)]), (1, .directory [("etc", 2)]),
    (2, .directory [("90-eth0.yaml", 3), ("90-eth0.yaml.tmp", 4)]),
    (3, .file "old".toUTF8 false), (4, .symlink "90-eth0.yaml.bkp")]
  root := 0
  working := [1, 0]
  next := 5

/-- It is not enough that the temporary name does not stand for the document: through a link it can
stand for what becomes the backup, and then the new text is lost. -/
theorem save_not_always_complete :
    ¬ ∀ (store : FileStore) (document : Document) (start after : FileSystem), start.Sound →
      (∀ id, start.resolve true (store.pathFor document.interface ++ temporarySuffix) = .ok id →
        start.resolve true (store.pathFor document.interface) ≠ .ok id) →
      Ends true start (store.save document) (.ok ()) after →
      ∃ content, document.render = .ok content ∧
        after.read (store.pathFor document.interface) = .ok content.toUTF8 := by
  intro always
  let world : World := { files := misled, host := fun _ _ _ => .error .absent }
  have saved : (world.perform (FileStore.save ⟨"etc", "90-"⟩ (.skeleton "eth0"))).1 = .ok () := by
    decide +kernel
  have old : (world.perform (FileStore.save ⟨"etc", "90-"⟩ (.skeleton "eth0"))).2.files.read
      (FileStore.pathFor ⟨"etc", "90-"⟩ "eth0") = .ok "old".toUTF8 := by decide +kernel
  have missing : misled.resolve true (FileStore.pathFor ⟨"etc", "90-"⟩ "eth0" ++ temporarySuffix) =
      .error (.numbered .noEntry) := by decide +kernel
  have text : (Document.skeleton "eth0").render =
      .ok "network:\n  version: 2\n  ethernets:\n    eth0: \x7b\x7d\n" := by decide +kernel
  have ends := perform_ends world (FileStore.save ⟨"etc", "90-"⟩ (.skeleton "eth0"))
  rw [saved] at ends
  have sound : misled.Sound := FileSystem.sound_of_objects (by decide) (by decide) (by decide)
  obtain ⟨content, renders, reads⟩ := always ⟨"etc", "90-"⟩ (.skeleton "eth0") misled _ sound
    (fun id found => by cases missing.symm.trans found) ends
  rw [Except.ok.inj (renders.symm.trans text)] at reads
  exact absurd (old.symm.trans reads) (by decide +kernel)

end FileStore

end NetplanEditor
