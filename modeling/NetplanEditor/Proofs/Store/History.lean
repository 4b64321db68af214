import NetplanEditor.Config.Basic
import NetplanEditor.Proofs.Document.RoundTrip
import NetplanEditor.Proofs.Store.Save

/-!
# A directory of documents as a map

Seen from outside, a directory of documents is a map from interfaces to the documents that were last
saved, with one older generation of each. `History` is any sequence of calls, of which any can fail,
together with this map; `Recorded` relates the map to the files, and every call keeps it
(`History.recorded`). From it follows what loading gives and what a save leaves behind.
-/

namespace NetplanEditor

namespace FileStore

open FileSystem (Unchanged Fits)
open Routine (Keeps Ends)

variable {store : FileStore} {start fs after : FileSystem} {interface other : String}
  {document : Document} {reliable : Bool} {last : String → Option Document}

/-! ## Loading -/

/-- What is loaded for an interface when reading its file has this outcome. -/
def found (store : FileStore) (interface : String) :
    Except SystemError ByteArray → Except LoadError Document
  | .error cause =>
    if cause.isNotFound then .ok (.skeleton interface)
    else .error (.unreadable (store.pathFor interface) cause)
  | .ok content =>
    match String.fromUTF8? content with
    | none => .error (.unreadable (store.pathFor interface) .notText)
    | some text =>
      (Document.parse interface text).value.mapError (.invalid (store.pathFor interface))

/-- A load depends on the file at its path only. -/
theorem perform_load (world : World) (store : FileStore) (interface : String) :
    (world.perform (store.load interface)).1 =
      store.found interface (world.files.read (store.pathFor interface)) := by
  unfold load World.perform found
  cases world.files.read (store.pathFor interface) with
  | error cause =>
      dsimp only
      split
      · rw [World.perform_bind]
        rfl
      · rfl
  | ok content =>
      dsimp only
      cases String.fromUTF8? content with
      | none => rfl
      | some text =>
          dsimp only
          rw [World.perform_bind]
          unfold Logged.share
          rw [World.perform_bind]
          rfl

/-- No load changes a file. -/
theorem load_over {value : Except LoadError Document}
    (ends : Ends reliable fs (store.load interface) value after) : after = fs := by
  have keeps : Keeps reliable (fun _ seen => seen = fs) (fun _ _ seen => seen = fs)
      (store.load interface) false fs := by
    refine Keeps.read rfl fun answer => ?_
    cases answer with
    | error cause =>
        dsimp only
        split
        · exact Keeps.logged rfl _ (Keeps.done rfl rfl)
        · exact Keeps.done rfl rfl
    | ok content =>
        dsimp only
        cases String.fromUTF8? content with
        | none => exact Keeps.done rfl rfl
        | some text =>
            have shared : Keeps reliable (fun _ seen => seen = fs) (fun _ _ seen => seen = fs)
                (Document.parse interface text).share false fs :=
              Keeps.logged rfl _ (Keeps.done rfl rfl)
            refine Keeps.bind shared fun value renamed later same _ => ?_
            exact Keeps.done same same
  obtain ⟨_, same, _⟩ := keeps.ends ends
  exact same

/-! ## The names of several interfaces -/

/-- The directory of the documents. -/
def home (store : FileStore) (fs : FileSystem) : Except ErrorNumber Folder :=
  fs.home (Path.isAbsolute store.dir) (Path.components store.dir)

/-- The interface can be configured. -/
def Configurable (interface : String) : Prop := Config.nameFault? interface = none

instance : Decidable (Configurable interface) :=
  inferInstanceAs (Decidable (Config.nameFault? interface = none))

theorem Configurable.no_slash (configurable : Configurable interface) : '/' ∉ interface.toList := by
  intro slash
  have forbidden : interface.toList.any (fun c => c == '/' || isBlank c || c == '\x00') = true :=
    List.any_eq_true.mpr ⟨'/', slash, rfl⟩
  simp only [Configurable, Config.nameFault?, forbidden, if_true] at configurable
  repeat' split at configurable
  all_goals cases configurable

/-- The names begin with the start of the store, which leads into no other directory. -/
theorem front_spec (plain : '/' ∉ store.start.toList) (configurable : Configurable interface) :
    Path.folderOf (store.front interface) = Path.components store.dir ∧
      Path.lastOf (store.front interface) = store.start ++ interface ∧
      Path.isAbsolute (store.front interface) = Path.isAbsolute store.dir := by
  refine Path.join_folder ?_
  rw [String.toList_append, List.mem_append, not_or]
  exact ⟨plain, configurable.no_slash⟩

theorem homeOf_front (plain : '/' ∉ store.start.toList) (configurable : Configurable interface) :
    fs.homeOf (store.front interface) = store.home fs := by
  obtain ⟨folder, _, absolute⟩ := front_spec plain configurable
  rw [FileSystem.homeOf, folder, absolute]
  rfl

/-- The names of one interface are in the directory of the names of the other. -/
theorem names_beside (plain : '/' ∉ store.start.toList) (configurable : Configurable interface)
    (otherConfigurable : Configurable other) (part : Part) :
    Path.Names (part.path (store.front other)) (Path.isAbsolute (store.front interface))
      (Path.folderOf (store.front interface)) (part.name (store.front other)) := by
  obtain ⟨folder, _, absolute⟩ := front_spec plain configurable
  obtain ⟨otherFolder, _, otherAbsolute⟩ := front_spec plain otherConfigurable
  rw [folder, absolute, ← otherFolder, ← otherAbsolute]
  exact part.names _

/-- Two interfaces have no name in common. -/
theorem name_ne_of_interface (plain : '/' ∉ store.start.toList)
    (configurable : Configurable interface) (otherConfigurable : Configurable other)
    (differ : other ≠ interface) (part mine : Part) :
    part.name (store.front other) ≠ mine.name (store.front interface) := by
  intro same
  obtain ⟨_, last, _⟩ := front_spec plain configurable
  obtain ⟨_, otherLast, _⟩ := front_spec plain otherConfigurable
  have fronts := (Part.name_inj same).2
  rw [last, otherLast, String.append_right_inj] at fronts
  exact differ fronts

/-! ## Histories -/

/-- A document that was built by edits from a skeleton or a text, for an interface that can be
configured. Of the YAML library it is assumed that the text of the document reads back. -/
structure Admitted (document : Document) : Prop where
  configurable : Configurable document.interface
  reachable : Document.Reachable document.interface document
  back : document.toTree.ReadsBack

/-- A sequence of calls from the files `start`, with the documents that were last saved. Each call
may fail, and so may each system call in it. -/
inductive History (reliable : Bool) (store : FileStore) (start : FileSystem) :
    (String → Option Document) → FileSystem → Prop
  | start : History reliable store start (fun _ => none) start
  | saved {last : String → Option Document} {fs after : FileSystem} {document : Document} :
    History reliable store start last fs → Admitted document →
    Ends reliable fs (store.save document) (.ok ()) after →
    History reliable store start
      (fun interface => if interface = document.interface then some document else last interface) after
  | failed {last : String → Option Document} {fs after : FileSystem} {document : Document}
      {error : SaveError} :
    History reliable store start last fs → Admitted document →
    Ends reliable fs (store.save document) (.error error) after →
    History reliable store start last after
  | loaded {last : String → Option Document} {fs after : FileSystem} {interface : String}
      {value : Except LoadError Document} :
    History reliable store start last fs → Ends reliable fs (store.load interface) value after →
    History reliable store start last after

/-- What is asked of the store and the files before the first call: the names begin in the directory
of the store, there are no symbolic links and no second names of temporary files, and the directory
is there, or is missing on a path that does not lead back up and is not too long for its names. -/
structure Suitable (store : FileStore) (start : FileSystem) : Prop where
  plain : '/' ∉ store.start.toList
  sound : start.Sound
  tidy : start.Tidy
  folder : store.home start = .error .noEntry → ".." ∉ Path.components store.dir ∧
    ∀ interface, Configurable interface →
      Fits (store.front interface) (Part.document.name (store.front interface))

/-- The files hold what the map says: for an interface that was saved its last document, and for
another what was there at the start. -/
structure Recorded (store : FileStore) (start : FileSystem) (last : String → Option Document)
    (fs : FileSystem) : Prop where
  sound : fs.Sound
  tidy : fs.Tidy
  missing : store.home fs = .error .noEntry → store.home start = .error .noEntry
  saved : ∀ interface document, Configurable interface → last interface = some document →
    document.interface = interface ∧ Admitted document ∧ ∃ content, document.render = .ok content ∧
      fs.read (store.pathFor interface) = .ok content.toUTF8
  initial : ∀ interface, Configurable interface → last interface = none →
    fs.read (store.pathFor interface) = start.read (store.pathFor interface)

namespace Recorded

theorem ready (suitable : Suitable store start) (recorded : Recorded store start last fs)
    (configurable : Configurable interface) : fs.Ready (store.front interface) := by
  refine recorded.tidy.ready recorded.sound fun missing => ?_
  rw [homeOf_front suitable.plain configurable] at missing
  rw [(front_spec suitable.plain configurable).1]
  exact (suitable.folder (recorded.missing missing)).1

/-- A name that a save must not show under is unchanged after it. -/
theorem unchanged (recorded : Recorded store start last fs) {front path name : String}
    {text : ByteArray} {renamed : Bool} (safe : Safe fs front text renamed after)
    (names : Path.Names path (Path.isAbsolute front) (Path.folderOf front) name)
    (watched : Watched fs front renamed name) : Unchanged fs after front path name :=
  (safe.spares.names path name names watched
    (recorded.tidy.aside recorded.sound names watched.lasting)).2

/-- The files of another interface are not touched by a save. -/
theorem beside (suitable : Suitable store start) (recorded : Recorded store start last fs)
    (configurable : Configurable interface) (otherConfigurable : Configurable other)
    (differ : other ≠ interface) {text : ByteArray} {renamed : Bool}
    (safe : Safe fs (store.front interface) text renamed after) (part : Part) :
    Unchanged fs after (store.front interface) (part.path (store.front other))
      (part.name (store.front other)) := by
  have ne := name_ne_of_interface suitable.plain configurable otherConfigurable differ part
  refine recorded.unchanged safe (names_beside suitable.plain configurable otherConfigurable part) ?_
  exact ⟨ne _, fun _ => ne _, fun same => (ne _ same).elim⟩

/-- Reading gives the same in spite of a directory that was made meanwhile. -/
theorem read (suitable : Suitable store start) (recorded : Recorded store start last fs)
    (configurable : Configurable interface) (otherConfigurable : Configurable other)
    (unchanged : Unchanged fs after (store.front interface) (store.pathFor other)
      (Part.document.name (store.front other))) :
    after.read (store.pathFor other) = fs.read (store.pathFor other) := by
  refine unchanged.read fun missing => ?_
  rw [homeOf_front suitable.plain configurable] at missing
  have fits := (suitable.folder (recorded.missing missing)).2 other otherConfigurable
  unfold Fits at fits ⊢
  rw [(front_spec suitable.plain otherConfigurable).1] at fits
  rw [(front_spec suitable.plain configurable).1]
  exact fits

/-- A save keeps the record, with its document if it ends well. -/
theorem save (suitable : Suitable store start) (recorded : Recorded store start last fs)
    (admitted : Admitted document) {value : Except SaveError Unit}
    (ends : Ends reliable fs (store.save document) value after) :
    Recorded store start
      (fun interface => if interface = document.interface ∧ value = .ok () then some document
        else last interface) after := by
  have configurable := admitted.configurable
  obtain ⟨text, safe, ended, renders⟩ := save_over store (recorded.ready suitable configurable) ends
  have missing : store.home after = .error .noEntry → store.home fs = .error .noEntry := by
    have same := safe.spares.missing
    rwa [homeOf_front suitable.plain configurable, homeOf_front suitable.plain configurable] at same
  -- Reading another document, or any document after a failure, gives the same as before.
  have stays {other : String} (otherConfigurable : Configurable other)
      (kept : ¬ (other = document.interface ∧ value = .ok ())) :
      after.read (store.pathFor other) = fs.read (store.pathFor other) := by
    refine recorded.read suitable configurable otherConfigurable ?_
    by_cases same : other = document.interface
    · subst same
      cases value with
      | ok => exact (kept ⟨rfl, rfl⟩).elim
      | error error =>
          rw [pathFor_eq]
          exact safe.unchanged (recorded.ready suitable configurable)
    · rw [pathFor_eq]
      exact recorded.beside suitable configurable otherConfigurable same safe Part.document
  refine ⟨safe.ready.sound, safe.spares.tidy recorded.tidy, recorded.missing ∘ missing, ?_, ?_⟩
  · intro interface saved isConfigurable isLast
    split at isLast
    next isSaved =>
      cases isLast
      obtain ⟨rfl, rfl⟩ := isSaved
      obtain ⟨content, written, rfl⟩ := renders rfl
      refine ⟨rfl, admitted, content, written, ?_⟩
      rw [pathFor_eq]
      exact safe.document rfl
    next kept =>
      rw [stays isConfigurable kept]
      exact recorded.saved interface saved isConfigurable isLast
  · intro interface isConfigurable isLast
    split at isLast
    · cases isLast
    next kept =>
      rw [stays isConfigurable kept]
      exact recorded.initial interface isConfigurable isLast

end Recorded

/-- Every history keeps its record. -/
theorem History.recorded (suitable : Suitable store start)
    (history : History reliable store start last fs) : Recorded store start last fs := by
  induction history with
  | start =>
      exact ⟨suitable.sound, suitable.tidy, id, fun _ _ _ none => (by cases none), fun _ _ _ => rfl⟩
  | saved _ admitted ends ih =>
      have recorded := ih.save suitable admitted ends
      simpa only [and_true] using recorded
  | failed _ admitted ends ih =>
      have recorded := ih.save suitable admitted ends
      simpa only [reduceCtorEq, and_false, if_false] using recorded
  | loaded _ ends ih =>
      rw [load_over ends]
      exact ih

/-! ## What a history comes to -/

theorem fromUTF8?_toUTF8 (text : String) : String.fromUTF8? text.toUTF8 = some text := by
  unfold String.fromUTF8?
  split
  · rfl
  next invalid => exact (invalid text.isValidUTF8).elim

/-- The text of a document that was saved is found as that document. -/
theorem Admitted.found (admitted : Admitted document) {content : String}
    (renders : document.render = .ok content) :
    store.found document.interface (.ok content.toUTF8) = .ok document := by
  have parsed := Document.parse_render admitted.reachable.sound.2 renders admitted.back
  unfold FileStore.found
  dsimp only
  rw [fromUTF8?_toUTF8]
  dsimp only
  rw [parsed]
  rfl

/-- After any history, loading an interface gives the document that was last saved for it, or if there
is none what was there at the start. A save that ends well leaves the document before it as the
backup, or the backup as it was if there was none, and no temporary file. No save makes a difference
to another interface, to its files or to what is loaded for it. -/
theorem History.refines (suitable : Suitable store start)
    (history : History reliable store start last fs) :
    (∀ (interface : String) (world : World), Configurable interface → world.files = fs →
      (world.perform (store.load interface)).1 =
        match last interface with
        | some document => .ok document
        | none => store.found interface (start.read (store.pathFor interface))) ∧
    (∀ document after, Admitted document → Ends reliable fs (store.save document) (.ok ()) after →
      after.resolve false (store.pathFor document.interface ++ temporarySuffix) =
          .error (.numbered .noEntry) ∧
        (reliable = true → ∀ old, fs.read (store.pathFor document.interface) = .ok old →
          after.read (store.backupFor document.interface) = .ok old) ∧
        (fs.isPresent (store.pathFor document.interface) = false →
          after.glance (store.backupFor document.interface) =
            fs.glance (store.backupFor document.interface))) ∧
    ∀ document value after, Admitted document → Ends reliable fs (store.save document) value after →
      ∀ other, Configurable other → other ≠ document.interface →
        (∀ part : Part, after.glance (part.path (store.front other)) =
          fs.glance (part.path (store.front other))) ∧
        ∀ world later : World, world.files = fs → later.files = after →
          (later.perform (store.load other)).1 = (world.perform (store.load other)).1 := by
  have recorded := history.recorded suitable
  refine ⟨fun interface world configurable files => ?_, fun document after admitted ends => ?_,
    fun document value after admitted ends other configurable differ => ?_⟩
  · rw [perform_load, files]
    cases isLast : last interface with
    | none => rw [recorded.initial interface configurable isLast]
    | some document =>
        obtain ⟨rfl, admitted, content, renders, reads⟩ :=
          recorded.saved interface document configurable isLast
        rw [reads]
        exact admitted.found renders
  · have ready := recorded.ready suitable admitted.configurable
    obtain ⟨text, safe, ended, _⟩ := save_over store ready ends
    rw [pathFor_eq, backupFor_eq, Part.document_temporary]
    refine ⟨ended.gone rfl, ended.backup rfl, fun absent => ?_⟩
    have watched : Watched fs (store.front document.interface) true
        (Part.backup.name (store.front document.interface)) :=
      ⟨Part.name_ne (by decide) _, fun _ => Part.name_ne (by decide) _, fun _ => absent⟩
    exact (recorded.unchanged safe (Part.backup.names _) watched).glance
  · have ready := recorded.ready suitable admitted.configurable
    obtain ⟨text, safe, _⟩ := save_over store ready ends
    have beside := recorded.beside suitable admitted.configurable configurable differ safe
    refine ⟨fun part => (beside part).glance, fun world later files filesLater => ?_⟩
    have document := beside Part.document
    rw [← pathFor_eq] at document
    rw [perform_load, perform_load, files, filesLater,
      recorded.read suitable admitted.configurable configurable document]

/-- The skeleton of an interface is saved in an empty directory, and then a document with a flag. -/
theorem History.refines_twice :
    Suitable ⟨"", "90-"⟩ FileSystem.empty ∧
      ∃ last fs document, History true ⟨"", "90-"⟩ FileSystem.empty last fs ∧
        last "eth0" = some document ∧ document.entry.dhcp4 = some true ∧
        ∀ world : World, world.files = fs →
          (world.perform (FileStore.load ⟨"", "90-"⟩ "eth0")).1 = .ok document := by
  let world : World := { files := FileSystem.empty, host := fun _ _ _ => .error .absent }
  let first := world.perform (FileStore.save ⟨"", "90-"⟩ (.skeleton "eth0"))
  let document : Document := { interface := "eth0", entry := { dhcp4 := some true } }
  let second := first.2.perform (FileStore.save ⟨"", "90-"⟩ document)
  have home : FileStore.home ⟨"", "90-"⟩ FileSystem.empty = .ok ⟨40, 1, [0]⟩ := by decide +kernel
  have suitable : Suitable ⟨"", "90-"⟩ FileSystem.empty := by
    refine ⟨by decide, FileSystem.sound_of_objects (by decide) (by decide) (by decide), ?_, ?_⟩
    · exact .of_objects (.of_objects (by decide)) (by decide)
    · intro missing
      cases home.symm.trans missing
  have skeleton : Admitted (.skeleton "eth0") :=
    ⟨by decide, .skeleton, .of_check (by decide +kernel)⟩
  have edited : Admitted document := by
    have reachable := @Document.Reachable.edited "eth0" _ document (.setDhcp "4") .skeleton rfl
    exact ⟨by decide, reachable, .of_check (by decide +kernel)⟩
  have firstEnds := Routine.perform_ends world (FileStore.save ⟨"", "90-"⟩ (.skeleton "eth0"))
  have secondEnds := Routine.perform_ends first.2 (FileStore.save ⟨"", "90-"⟩ document)
  have firstOk : first.1 = .ok () := by decide +kernel
  have secondOk : second.1 = .ok () := by decide +kernel
  rw [firstOk] at firstEnds
  rw [secondOk] at secondEnds
  have history := (History.start.saved skeleton firstEnds).saved edited secondEnds
  exact ⟨suitable, _, _, document, history, rfl, rfl, fun world files =>
    (history.refines suitable).1 "eth0" world (by decide) files⟩

/-- Files below which the directory `a` is missing, with a file that is no text. -/
def beforeMissing : FileSystem where
  objects := [(0, .directory [("work", 1)]), (1, .directory [("90-eth0.yaml", 2)]),
    (2, .file ⟨#[0xff]⟩ false)]
  root := 0
  working := [1, 0]
  next := 3

/-- A computer with these files. -/
def missingDirectory : World where
  files := beforeMissing
  host := fun _ _ _ => .error .absent

/-- A store in a missing directory, on a path that leads back up. -/
def leadingUp : FileStore := ⟨"a/..", "90-"⟩

/-- What a store in a missing directory gives at the start can change without a save: where the path
of the directory leads back up, making the directory makes another one come into sight. -/
theorem history_not_through_missing :
    ¬ ∀ (store : FileStore) (start fs : FileSystem) (last : String → Option Document),
      '/' ∉ store.start.toList → start.Sound → start.Tidy → History true store start last fs →
      ∀ (interface : String) (world : World), Configurable interface → world.files = fs →
        (world.perform (store.load interface)).1 =
          match last interface with
          | some document => .ok document
          | none => store.found interface (start.read (store.pathFor interface)) := by
  intro always
  have sound : beforeMissing.Sound :=
    FileSystem.sound_of_objects (by decide) (by decide) (by decide)
  have tidy : beforeMissing.Tidy := .of_objects (.of_objects (by decide)) (by decide)
  have admitted : Admitted (.skeleton "eth1") :=
    ⟨by decide, .skeleton, .of_check (by decide +kernel)⟩
  have ends := Routine.perform_ends missingDirectory (leadingUp.save (.skeleton "eth1"))
  have saved : (missingDirectory.perform (leadingUp.save (.skeleton "eth1"))).1 = .ok () := by
    decide +kernel
  rw [saved] at ends
  have loads := always leadingUp beforeMissing _ _ (by decide) sound tidy
    (.saved .start admitted ends) "eth0"
    (missingDirectory.perform (leadingUp.save (.skeleton "eth1"))).2 (by decide) rfl
  have fails : ((missingDirectory.perform (leadingUp.save (.skeleton "eth1"))).2.perform
      (leadingUp.load "eth0")).1.isOk = false := by
    decide +kernel
  have starts : (leadingUp.found "eth0" (beforeMissing.read (leadingUp.pathFor "eth0"))).isOk =
      true := by
    decide +kernel
  rw [loads] at fails
  exact Bool.noConfusion (starts.symm.trans fails)

end FileStore

end NetplanEditor
