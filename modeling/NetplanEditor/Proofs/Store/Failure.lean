import NetplanEditor.Proofs.FileSystem.Removal
import NetplanEditor.Proofs.Routine.Trace
import NetplanEditor.Proofs.Store.Save

/-!
# What a failed save leaves behind

A save can fail before it writes the temporary file, in writing it, or after that. `Failed` lists
these ways with their calls and the files between them, and each failed save goes one of them
(`save_failed`). Only after a failure of the third kind the temporary file is removed
(`save_discards`). The backup is lost only if it was removed and then could be made anew neither by
a link nor by a copy (`save_keeps_backup`).
-/

namespace NetplanEditor

namespace FileStore

open FileSystem (Atomic Spares Beside)
open Routine (Traced)

variable {reliable : Bool} {start fs last : FileSystem} {path temporary backup front : String}
  {trace : List Exchange} {error : SaveError} {document : Document} {store : FileStore}

/-! ## The parts of a save that can fail -/

/-- The call is one of those that make a directory. -/
def Prepares : Exchange → Prop
  | .makeDirectory .. | .isDirectory .. => True
  | _ => False

theorem settle_prepares {answer value : Except SystemError Unit}
    (traced : Traced reliable fs (makeDirectories.settle path answer) trace value last) :
    ∀ exchange ∈ trace, Prepares exchange := by
  cases answer with
  | ok =>
      cases traced
      exact nofun
  | error cause =>
      cases traced with
      | isDirectory _ rest =>
          cases rest
          simp [Prepares]

theorem makeDirectories_prepares {paths : List String} {value : Except SystemError Unit}
    (traced : Traced reliable fs (makeDirectories paths) trace value last) :
    ∀ exchange ∈ trace, Prepares exchange := by
  induction paths generalizing fs trace value last with
  | nil =>
      cases traced
      exact nofun
  | cons path above ih =>
      rw [makeDirectories] at traced
      split at traced
      · cases traced
        exact nofun
      cases traced with
      | @makeDirectory _ _ _ answer _ _ _ _ _ rest =>
          refine List.forall_mem_cons.mpr ⟨trivial, ?_⟩
          cases answer with
          | ok =>
              cases rest
              exact nofun
          | error cause =>
              dsimp only at rest
              split at rest
              · obtain ⟨made, between, early, late, rfl, first, rest⟩ := rest.of_bind
                refine List.forall_mem_append.mpr ⟨ih first, ?_⟩
                cases made with
                | error cause =>
                    cases rest
                    exact nofun
                | ok =>
                    cases rest with
                    | makeDirectory _ rest =>
                        exact List.forall_mem_cons.mpr ⟨trivial, settle_prepares rest⟩
              · exact settle_prepares rest

theorem prepare_prepares {value : Except SaveError Unit}
    (traced : Traced reliable fs (prepare path) trace value last) :
    (∀ exchange ∈ trace, Prepares exchange) ∧
      ∀ error, value = .error error → ∃ parent cause, error = .notWritten parent cause := by
  unfold prepare at traced
  split at traced
  · cases traced
    exact ⟨nofun, nofun⟩
  next parent _ =>
    obtain ⟨made, between, early, late, rfl, first, rest⟩ := traced.of_bind
    cases made with
    | error cause =>
        cases rest
        rw [List.append_nil]
        refine ⟨makeDirectories_prepares first, ?_⟩
        rintro _ ⟨⟩
        exact ⟨parent, cause, rfl⟩
    | ok =>
        cases rest
        rw [List.append_nil]
        exact ⟨makeDirectories_prepares first, nofun⟩

/-- A backup is made by a link or a copy, and if neither can be made both have been tried. -/
theorem keep_traced {value : Except SaveError Unit}
    (traced : Traced reliable fs (keep path backup) trace value last) :
    value = .ok () ∧ (fs.link path backup = .ok last ∨ fs.copy path backup = .ok last) ∨
      ∃ cause cause', value = .error (.notBackedUp path backup cause') ∧
        trace = [.link path backup (.error cause), .copy path backup (.error cause')] := by
  have kept {fs : FileSystem} {trace : List Exchange} {events : List LogEvent}
      (rest : Traced reliable fs (do MonadLog.logAll events; return .ok ()) trace value last) :
      value = .ok () ∧ last = fs := by
    cases rest.of_logged
    exact ⟨rfl, rfl⟩
  cases traced with
  | @link _ _ _ _ answer _ _ _ _ linking rest =>
      cases answer with
      | ok =>
          obtain ⟨ok, rfl⟩ := kept rest
          exact Or.inl ⟨ok, Or.inl linking.of_ok⟩
      | error cause =>
          obtain rfl := linking.of_error
          cases rest with
          | log rest =>
              cases rest with
              | @copy _ _ _ _ answer _ _ _ _ copying rest =>
                  cases answer with
                  | ok =>
                      obtain ⟨ok, rfl⟩ := kept rest
                      exact Or.inl ⟨ok, Or.inr copying.of_ok⟩
                  | error cause' =>
                      cases rest
                      exact Or.inr ⟨cause, cause', rfl, rfl⟩

/-- The files after an old backup was removed, if there was one. -/
def Cleared (fs : FileSystem) (backup : String) (after : FileSystem) : Prop :=
  fs.remove backup = .ok after ∨
    after = fs ∧ ∃ cause, fs.remove backup = .error cause ∧ cause.isNotFound = true

/-- Nothing is changed by a backup that is not needed or fails at once. Otherwise there is a document
to keep and no backup any more. -/
theorem backUp_traced {value : Except SaveError Unit}
    (traced : Traced reliable fs (backUp path) trace value last) :
    last = fs ∧ (value = .ok () ∨
        ∃ cause, value = .error (.notBackedUp path (path ++ backupSuffix) cause)) ∨
      ∃ cleared early rest, fs.isPresent path = true ∧ Cleared fs (path ++ backupSuffix) cleared ∧
        trace = early ++ rest ∧
        Traced reliable cleared (keep path (path ++ backupSuffix)) rest value last := by
  cases traced with
  | @isPresent _ _ _ answer _ _ _ told rest =>
      cases answer with
      | false =>
          cases rest
          exact Or.inl ⟨rfl, Or.inl rfl⟩
      | true =>
          have present : fs.isPresent path = true :=
            told.elim (fun truth => truth.symm) fun none => by cases none.2
          cases rest with
          | @remove _ _ _ answer _ _ _ _ removing rest =>
              rcases removing.cases with ⟨rfl, ok⟩ | ⟨cause, rfl, rfl | none, notFound⟩
              · exact Or.inr ⟨_, [_, _], _, present, Or.inl ok, rfl, rest⟩
              · dsimp only at rest
                split at rest
                next missing =>
                  refine Or.inr ⟨_, [_, _], _, present, Or.inr ⟨rfl, cause, ?_⟩, rfl, rest⟩
                  exact ⟨(notFound missing).1, missing⟩
                next =>
                  cases rest
                  exact Or.inl ⟨rfl, Or.inr ⟨cause, rfl⟩⟩
              · exact none.elim

/-- A document is not replaced if it cannot be backed up, or if it cannot be renamed to. -/
theorem replace_traced
    (traced : Traced reliable fs (replace temporary path) trace (.error error) last) :
    Traced reliable fs (backUp path) trace (.error error) last ∨
      ∃ early cause, error = .notRenamed temporary path cause ∧
        trace = early ++ [.rename temporary path (.error cause)] ∧
        Traced reliable fs (backUp path) early (.ok ()) last := by
  obtain ⟨kept, between, early, late, rfl, first, rest⟩ := traced.of_bind
  cases kept with
  | error other =>
      cases rest
      exact Or.inl ((List.append_nil early).symm ▸ first)
  | ok =>
      cases rest with
      | @rename _ _ _ _ answer _ _ _ _ moving rest =>
          cases answer with
          | ok => cases rest
          | error cause =>
              cases rest
              obtain rfl := moving.of_error
              exact Or.inr ⟨early, cause, rfl, rfl, first⟩

/-! ## The ways a save can fail -/

/-- The calls of a save that fails, and the files it leaves. -/
inductive Failed (reliable : Bool) (path : String) (start : FileSystem) :
    List Exchange → SaveError → FileSystem → Prop
  | unwritable {cause : DocumentError} : Failed reliable path start [] (.unwritable cause) start
  | unprepared {made : List Exchange} {error : SaveError} {last : FileSystem} :
    Traced reliable start (prepare path) made (.error error) last →
    Failed reliable path start made error last
  | unwritten {made : List Exchange} {prepared last : FileSystem} {content : ByteArray}
    {cause : SystemError} : Traced reliable start (prepare path) made (.ok ()) prepared →
    FileSystem.Ending prepared (prepared.write (path ++ temporarySuffix) content)
      (prepared.WritesPart (path ++ temporarySuffix) content) (.error cause) last →
    Failed reliable path start (made ++ [.write (path ++ temporarySuffix) content (.error cause)])
      (.notWritten (path ++ temporarySuffix) cause) last
  | unreplaced {made replacing : List Exchange} {prepared staged stuck last : FileSystem}
    {content : ByteArray} {error : SaveError} {answer : Except SystemError Unit} :
    Traced reliable start (prepare path) made (.ok ()) prepared →
    prepared.write (path ++ temporarySuffix) content = .ok staged →
    Traced reliable staged (replace (path ++ temporarySuffix) path) replacing (.error error) stuck →
    Atomic stuck (stuck.remove (path ++ temporarySuffix)) answer last →
    Failed reliable path start
      (made ++ .write (path ++ temporarySuffix) content (.ok ()) ::
        (replacing ++ [.remove (path ++ temporarySuffix) answer])) error last

theorem discard_traced {value : Unit}
    (traced : Traced reliable fs (discard temporary) trace value last) :
    ∃ answer, trace = [.remove temporary answer] ∧ Atomic fs (fs.remove temporary) answer last := by
  cases traced with
  | @remove _ _ _ answer _ _ _ _ removing rest =>
      refine ⟨answer, ?_⟩
      cases answer with
      | ok =>
          cases rest
          exact ⟨rfl, removing⟩
      | error cause =>
          obtain ⟨rfl, rfl⟩ := rest.of_logAll
          exact ⟨rfl, removing⟩

/-- Every failed save goes one of these ways. -/
theorem save_failed (traced : Traced reliable start (store.save document) trace (.error error) last) :
    Failed reliable (store.pathFor document.interface) start trace error last := by
  cases renders : document.render with
  | error cause =>
      unfold save at traced
      rw [renders] at traced
      cases traced
      exact .unwritable
  | ok text =>
      unfold save at traced
      rw [renders] at traced
      obtain ⟨made, prepared, early, late, rfl, first, rest⟩ := traced.of_logged.of_bind
      cases made with
      | error error =>
          cases rest
          exact (List.append_nil early).symm ▸ .unprepared first
      | ok =>
          cases rest with
          | @write _ _ _ _ answer _ _ _ _ writing rest =>
              cases answer with
              | error cause =>
                  cases rest
                  exact .unwritten first writing
              | ok =>
                  obtain ⟨replaced, stuck, replacing, late, rfl, second, rest⟩ := rest.of_bind
                  cases replaced with
                  | ok => cases rest
                  | error error =>
                      obtain ⟨_, _, _, _, rfl, discarding, ended⟩ := rest.of_bind
                      obtain ⟨answer, rfl, removing⟩ := discard_traced discarding
                      cases ended
                      rw [List.append_nil]
                      exact .unreplaced first writing.of_ok second removing

/-! ## The temporary file -/

/-- The failure comes when the temporary file has been written. -/
def isLate : SaveError → Bool
  | .notBackedUp .. | .notRenamed .. => true
  | .unwritable _ | .notWritten .. => false

theorem replace_late
    (traced : Traced reliable fs (replace temporary path) trace (.error error) last) :
    isLate error = true := by
  rcases replace_traced traced with backing | ⟨_, cause, rfl, _, _⟩
  · rcases backUp_traced backing with ⟨_, none | ⟨cause, same⟩⟩ | ⟨_, _, _, _, _, _, keeping⟩
    · cases none
    · cases same
      rfl
    · rcases keep_traced keeping with ⟨none, _⟩ | ⟨_, cause, same, _⟩
      · cases none
      · cases same
        rfl
  · rfl

theorem not_removed_of_prepares (prepares : ∀ exchange ∈ trace, Prepares exchange) (path : String)
    (answer : Except SystemError Unit) : Exchange.remove path answer ∉ trace :=
  fun member => prepares _ member

/-- Before the temporary file has been written, nothing is removed. -/
theorem Failed.not_removed (failed : Failed reliable path start trace error last)
    (early : isLate error = false) (other : String) (answer : Except SystemError Unit) :
    Exchange.remove other answer ∉ trace := by
  cases failed with
  | unwritable => exact List.not_mem_nil
  | unprepared preparing =>
      exact not_removed_of_prepares (prepare_prepares preparing).1 other answer
  | unwritten preparing =>
      intro member
      rcases List.mem_append.mp member with before | writing
      · exact not_removed_of_prepares (prepare_prepares preparing).1 other answer before
      · cases List.mem_singleton.mp writing
  | unreplaced _ _ failing => cases early.symm.trans (replace_late failing)

/-- When it has been written, it is removed in the end. -/
theorem Failed.removed (failed : Failed reliable path start trace error last)
    (late : isLate error = true) :
    ∃ early answer, trace = early ++ [.remove (path ++ temporarySuffix) answer] ∧
      (answer = .ok () →
        last.resolve false (path ++ temporarySuffix) = .error (.numbered .noEntry)) := by
  cases failed with
  | unwritable => cases late
  | unprepared preparing =>
      obtain ⟨_, _, rfl⟩ := (prepare_prepares preparing).2 error rfl
      cases late
  | unwritten => cases late
  | @unreplaced made replacing _ _ _ _ content _ answer _ _ _ removing =>
      refine ⟨made ++ .write (path ++ temporarySuffix) content (.ok ()) :: replacing, answer, ?_, ?_⟩
      · rw [List.append_assoc, List.cons_append]
      rintro rfl
      exact FileSystem.resolve_removed removing.of_ok

/-- A save that fails after the temporary file was written ends by removing it, and if that succeeds
nothing is left at its path, whatever was there before. A save that fails earlier removes nothing: if
writing the temporary file breaks off, what was written of it stays. -/
theorem save_discards
    (traced : Traced reliable start (store.save document) trace (.error error) last) :
    match error with
    | .notBackedUp .. | .notRenamed .. => ∃ early answer,
        trace = early ++ [.remove (store.pathFor document.interface ++ temporarySuffix) answer] ∧
        (answer = .ok () →
          last.resolve false (store.pathFor document.interface ++ temporarySuffix) =
            .error (.numbered .noEntry))
    | .unwritable _ | .notWritten .. => ∀ path answer, .remove path answer ∉ trace := by
  have failed := save_failed traced
  cases error with
  | notBackedUp => exact failed.removed rfl
  | notRenamed => exact failed.removed rfl
  | unwritable => exact failed.not_removed rfl
  | notWritten => exact failed.not_removed rfl

/-- Files in which the name of a document stands for a directory, beside an older backup of it. -/
def obstructed : FileSystem where
  objects := [(0, .directory [("work", 1)]), (1, .directory [("etc", 2)]),
    (2, .directory [("90-vz-eth0.yaml", 3), ("90-vz-eth0.yaml.bkp", 4)]), (3, .directory []),
    (4, .file "old".toUTF8 false)]
  root := 0
  working := [1, 0]
  next := 5

/-- There the document cannot be backed up, and the temporary file is removed. -/
theorem save_discards_obstructed :
    ∃ early answer cause last,
      Traced true obstructed (save ⟨"etc", "90-vz-"⟩ (.skeleton "eth0"))
        (early ++ [.remove "etc/90-vz-eth0.yaml.tmp" answer])
        (.error (.notBackedUp "etc/90-vz-eth0.yaml" "etc/90-vz-eth0.yaml.bkp" cause)) last := by
  let world : World := { files := obstructed, host := fun _ _ _ => .error .absent }
  have fails : (world.perform (save ⟨"etc", "90-vz-"⟩ (.skeleton "eth0"))).1 =
      .error (.notBackedUp "etc/90-vz-eth0.yaml" "etc/90-vz-eth0.yaml.bkp" .notAFile) := by
    decide +kernel
  obtain ⟨trace, traced, _⟩ := world.perform_traced (save ⟨"etc", "90-vz-"⟩ (.skeleton "eth0"))
  rw [fails] at traced
  obtain ⟨early, answer, rfl, _⟩ := save_discards traced
  exact ⟨early, answer, _, _, traced⟩

/-- Files in which the temporary name is a link that leads nowhere. -/
def astray : FileSystem where
  objects := [(0, .directory [("work", 1)]), (1, .directory [("etc", 2)]),
    (2, .directory [("90-vz-eth0.yaml.tmp", 3)]), (3, .symlink "nowhere/x")]
  root := 0
  working := [1, 0]
  next := 4

/-- A failed save can leave something at the temporary path without having tried to remove it. -/
theorem temporary_left :
    ¬ ∀ (store : FileStore) (document : Document) (start last : FileSystem)
      (trace : List Exchange) (error : SaveError),
      Traced true start (store.save document) trace (.error error) last →
      (∀ answer, .remove (store.pathFor document.interface ++ temporarySuffix) answer ∈ trace →
        answer = .ok ()) →
      last.resolve false (store.pathFor document.interface ++ temporarySuffix) =
        .error (.numbered .noEntry) := by
  intro always
  let world : World := { files := astray, host := fun _ _ _ => .error .absent }
  have fails : (world.perform (save ⟨"etc", "90-vz-"⟩ (.skeleton "eth0"))).1 =
      .error (.notWritten "etc/90-vz-eth0.yaml.tmp" (.numbered .noEntry)) := by decide +kernel
  have left : (world.perform (save ⟨"etc", "90-vz-"⟩ (.skeleton "eth0"))).2.files.resolve false
      (pathFor ⟨"etc", "90-vz-"⟩ "eth0" ++ temporarySuffix) = .ok 3 := by decide +kernel
  obtain ⟨trace, traced, _⟩ := world.perform_traced (save ⟨"etc", "90-vz-"⟩ (.skeleton "eth0"))
  rw [fails] at traced
  have gone := always _ _ _ _ _ _ traced fun answer member =>
    ((save_failed traced).not_removed rfl _ answer member).elim
  cases left.symm.trans gone

/-- So it is when writing the temporary file breaks off: what was written of it is left. -/
theorem temporary_left_in_part :
    ∃ trace cause last,
      Traced true FileSystem.empty (save ⟨"", "90-"⟩ (.skeleton "eth0")) trace
        (.error (.notWritten "90-eth0.yaml.tmp" cause)) last ∧
      (∀ path answer, .remove path answer ∉ trace) ∧
      last.read "90-eth0.yaml.tmp" = .ok "netw".toUTF8 := by
  have path : pathFor ⟨"", "90-"⟩ "eth0" = "90-eth0.yaml" := by decide +kernel
  have prepared : prepare "90-eth0.yaml" = .done (.ok ()) := by
    have parent : Path.parent? "90-eth0.yaml" = some "" := by decide +kernel
    rw [prepare, parent]
    rfl
  have renders : (Document.skeleton "eth0").render =
      .ok "network:\n  version: 2\n  ethernets:\n    eth0: \x7b\x7d\n" := by decide +kernel
  have interface : (Document.skeleton "eth0").interface = "eth0" := rfl
  obtain ⟨partly, written⟩ : ∃ partly,
      FileSystem.empty.write "90-eth0.yaml.tmp" "netw".toUTF8 = .ok partly := ⟨_, rfl⟩
  have reads : (FileSystem.empty.write "90-eth0.yaml.tmp" "netw".toUTF8).bind
      (·.read "90-eth0.yaml.tmp") = .ok "netw".toUTF8 := by decide +kernel
  rw [written] at reads
  obtain ⟨trace, traced⟩ : ∃ trace,
      Traced true FileSystem.empty (save ⟨"", "90-"⟩ (.skeleton "eth0")) trace
        (.error (.notWritten "90-eth0.yaml.tmp" (.other "No space left on device"))) partly := by
    unfold save
    rw [renders, interface, path]
    dsimp only
    rw [prepared]
    exact ⟨_, .log (.write (.broken rfl ⟨4, written⟩) .done)⟩
  exact ⟨trace, _, partly, traced, (save_failed traced).not_removed rfl, reads⟩

/-! ## The backup -/

section Backup

variable {folder : Folder} {text old current : ByteArray}

/-- The backup holds what the document holds, while the temporary file is staged. -/
structure Doubled (fs : FileSystem) (front : String) (folder : Folder) (text current : ByteArray) :
    Prop where
  staged : fs.Staged front folder text
  backedUp : fs.BackedUp front folder current
  document : fs.read (Part.document.path front) = .ok current

/-- Where the backup is made anew, it becomes a double of the document. -/
theorem keep_doubled (staged : fs.Staged front folder text)
    (free : fs.child? folder.dir (Part.backup.name front) = none)
    (reads : fs.read (Part.document.path front) = .ok current)
    (kept : fs.link (Part.document.path front) (Part.backup.path front) = .ok last ∨
      fs.copy (Part.document.path front) (Part.backup.path front) = .ok last) :
    Doubled last front folder text current := by
  rcases kept with linked | copied
  · obtain ⟨stagedLast, spares, backedUp⟩ := staged.link linked
    exact ⟨stagedLast, backedUp current reads, staged.document_read spares reads⟩
  · obtain ⟨content, found, written⟩ := FileSystem.copy_ok copied
    cases reads.symm.trans found
    obtain ⟨stagedLast, spares, backedUp⟩ := staged.write free written
    exact ⟨stagedLast, backedUp, staged.document_read spares reads⟩

/-- An old backup that could be read has been removed, and nothing else has changed. -/
theorem Cleared.staged (cleared : Cleared fs (Part.backup.path front) last)
    (staged : fs.Staged front folder text) (kept : fs.read (Part.backup.path front) = .ok old) :
    last.Staged front folder text ∧ Spares fs last front (Beside front) ∧
      last.child? folder.dir (Part.backup.name front) = none := by
  rcases cleared with removed | ⟨rfl, cause, fails, missing⟩
  · exact staged.remove removed
  · have free := FileSystem.remove_not_found (Part.backup.names front)
      (staged.opens.reaches Part.backup) fails missing
    have absent := FileSystem.isPresent_of_free staged.ready.sound (Part.backup.names front)
      staged.opens.home free
    cases absent.symm.trans (FileSystem.isPresent_of_read kept)

/-- What a failed replacement has made of the backup: nothing, a double of the document, or nothing is
left of it, since it could be made anew in neither way. -/
theorem replace_backup (staged : fs.Staged front folder text)
    (kept : fs.read (Part.backup.path front) = .ok old)
    (isFile : ∀ cause, fs.glance (Part.document.path front) ≠ some (.error cause))
    (traced : Traced reliable fs (replace temporary (Part.document.path front)) trace (.error error)
      last) :
    last = fs ∨
      (∃ current, fs.read (Part.document.path front) = .ok current ∧
        Doubled last front folder text current) ∨
      ∃ cause cause',
        .link (Part.document.path front) (Part.backup.path front) (.error cause) ∈ trace ∧
        .copy (Part.document.path front) (Part.backup.path front) (.error cause') ∈ trace := by
  obtain ⟨early, value, backing, shown⟩ : ∃ early value,
      Traced reliable fs (backUp (Part.document.path front)) early value last ∧
        ∀ exchange ∈ early, exchange ∈ trace := by
    rcases replace_traced traced with backing | ⟨early, _, _, rfl, backing⟩
    · exact ⟨trace, _, backing, fun _ => id⟩
    · exact ⟨early, _, backing, fun _ => List.mem_append_left _⟩
  rcases backUp_traced backing with ⟨same, _⟩ | ⟨cleared, before, rest, present, clears, rfl, keeping⟩
  · exact Or.inl same
  rw [Part.document_backup] at clears keeping
  obtain ⟨stagedCleared, spares, free⟩ := clears.staged staged kept
  rcases keep_traced keeping with ⟨_, made⟩ | ⟨cause, cause', _, rfl⟩
  · cases reads : fs.read (Part.document.path front) with
    | error cause =>
        refine (isFile cause ?_).elim
        rw [FileSystem.glance, present, if_pos rfl, reads]
    | ok current =>
        exact Or.inr (Or.inl ⟨current, rfl,
          keep_doubled stagedCleared free (staged.document_read spares reads) made⟩)
  · refine Or.inr (Or.inr ⟨cause, cause', shown _ ?_, shown _ ?_⟩)
    · exact List.mem_append_right _ List.mem_cons_self
    · exact List.mem_append_right _ (List.mem_cons_of_mem _ List.mem_cons_self)

/-- Removing the temporary file leaves a double and its document. -/
theorem Doubled.discard (doubled : Doubled fs front folder text current)
    {answer : Except SystemError Unit}
    (removing : Atomic fs (fs.remove (Part.temporary.path front)) answer last) :
    last.read (Part.document.path front) = .ok current ∧
      last.read (Part.backup.path front) = .ok current := by
  have ready := doubled.staged.ready
  rcases removing.cases with ⟨_, ok⟩ | ⟨_, _, rfl | none, _⟩
  · have spares := (ready.discard ok).2
    have unchanged := (spares.names _ _ (Part.document.names front) (Part.name_ne (by decide) front)
      ready.aside).2
    exact ⟨FileSystem.read_of_glance unchanged.glance doubled.document,
      doubled.backedUp.discard ready doubled.staged.opens ok⟩
  · exact ⟨doubled.document, doubled.backedUp.read⟩
  · exact none.elim

theorem Prepared.discard (prepared : Prepared start front fs) {answer : Except SystemError Unit}
    (removing : Atomic fs (fs.remove (Part.temporary.path front)) answer last) :
    Prepared start front last := by
  rcases removing.cases with ⟨_, ok⟩ | ⟨_, _, rfl | none, _⟩
  · exact prepared.step (prepared.1.discard ok)
  · exact prepared
  · exact none.elim

theorem Prepared.write (prepared : Prepared start front fs)
    (ok : fs.write (Part.temporary.path front) text = .ok last) :
    Prepared start front last ∧ ∃ folder, last.Staged front folder text := by
  obtain ⟨folder, _, staged, spares⟩ := prepared.1.write ok
  exact ⟨prepared.step ⟨staged.ready, spares⟩, folder, staged⟩

/-- A name other than the temporary one is as it was while the directory is made. -/
theorem Prepared.glance (prepared : Prepared start front fs) (part : Part)
    (lasting : part ≠ .temporary) (aside : start.Aside front (part.name front)) :
    fs.glance (part.path front) = start.glance (part.path front) :=
  (prepared.2.names _ _ (part.names front) (Part.name_ne lasting front) aside).2.glance

theorem prepare_prepared (ready : start.Ready front) {value : Except SaveError Unit}
    (traced : Traced reliable start (prepare (Part.document.path front)) trace value fs) :
    Prepared start front fs := by
  obtain ⟨_, ⟨_, prepared⟩, _⟩ := (keeps_prepared ⟨ready, Spares.refl⟩).ends traced.ends
  exact prepared

/-- A failed save, where the names of a document are apart and the backup is not in their way, leaves
the backup as it was, or makes it a double of the document, which is as it was. Otherwise the old
backup was removed, and neither a link nor a copy could take its place. -/
theorem save_keeps_backup (ready : start.Ready (store.front document.interface))
    (aside : start.Aside (store.front document.interface)
      (Part.backup.name (store.front document.interface)))
    (isFile : ∀ cause, start.glance (store.pathFor document.interface) ≠ some (.error cause))
    (kept : start.read (store.backupFor document.interface) = .ok old)
    (traced : Traced reliable start (store.save document) trace (.error error) last) :
    last.read (store.backupFor document.interface) = .ok old ∨
      (∃ current, start.read (store.pathFor document.interface) = .ok current ∧
        last.read (store.pathFor document.interface) = .ok current ∧
        last.read (store.backupFor document.interface) = .ok current) ∨
      ∃ cause cause',
        .link (store.pathFor document.interface) (store.backupFor document.interface)
            (.error cause) ∈ trace ∧
          .copy (store.pathFor document.interface) (store.backupFor document.interface)
            (.error cause') ∈ trace := by
  have failed := save_failed traced
  rw [pathFor_eq] at isFile failed
  rw [backupFor_eq] at kept ⊢
  rw [pathFor_eq]
  generalize store.front document.interface = front at *
  have spared {fs : FileSystem} (prepared : Prepared start front fs) :
      fs.read (Part.backup.path front) = .ok old :=
    FileSystem.read_of_glance (prepared.glance .backup (by decide) aside) kept
  cases failed with
  | unwritable => exact Or.inl kept
  | unprepared preparing => exact Or.inl (spared (prepare_prepared ready preparing))
  | unwritten preparing writing =>
      have prepared := prepare_prepared ready preparing
      rw [Part.document_temporary] at writing
      rcases writing.cases with ⟨none, _⟩ | ⟨_, _, rfl | ⟨size, ok⟩, _⟩
      · cases none
      · exact Or.inl (spared prepared)
      · exact Or.inl (spared (prepared.write ok).1)
  | unreplaced preparing written failing removing =>
      rw [Part.document_temporary] at written failing removing
      obtain ⟨prepared, folder, staged⟩ := (prepare_prepared ready preparing).write written
      have same := prepared.glance .document (by decide) ready.aside
      rcases replace_backup staged (spared prepared) (same ▸ isFile) failing with
        rfl | ⟨current, reads, doubled⟩ | ⟨cause, cause', linking, copying⟩
      · exact Or.inl (spared (prepared.discard removing))
      · obtain ⟨document, backup⟩ := doubled.discard removing
        exact Or.inr (Or.inl ⟨current, FileSystem.read_of_glance same.symm reads, document, backup⟩)
      · refine Or.inr (Or.inr ⟨cause, cause', ?_, ?_⟩)
        · simp [linking]
        · simp [copying]

/-- Files in which a directory has the temporary name, beside a document and its backup. -/
def hindered : FileSystem where
  objects := [(0, .directory [("work", 1)]), (1, .directory [("etc", 2)]),
    (2, .directory [("90-eth0.yaml", 3), ("90-eth0.yaml.bkp", 4), ("90-eth0.yaml.tmp", 5)]),
    (3, .file "new".toUTF8 false), (4, .file "old".toUTF8 false), (5, .directory [])]
  root := 0
  working := [1, 0]
  next := 6

/-- There a save fails, and the backup is kept in one of the two ways unless it could be made in
neither. -/
theorem save_keeps_backup_hindered :
    ∃ trace error last,
      Traced true hindered (save ⟨"etc", "90-"⟩ (.skeleton "eth0")) trace (.error error) last ∧
      (last.read "etc/90-eth0.yaml.bkp" = .ok "old".toUTF8 ∨
        last.read "etc/90-eth0.yaml.bkp" = .ok "new".toUTF8 ∨
        ∃ cause, .link "etc/90-eth0.yaml" "etc/90-eth0.yaml.bkp" (.error cause) ∈ trace) := by
  let world : World := { files := hindered, host := fun _ _ _ => .error .absent }
  have sound : hindered.Sound := FileSystem.sound_of_objects (by decide) (by decide) (by decide)
  have tidy : hindered.Tidy := .of_objects (.of_objects (by decide)) (by decide)
  have home : hindered.homeOf (FileStore.front ⟨"etc", "90-"⟩ "eth0") = .ok ⟨40, 2, [1, 0]⟩ := by
    decide +kernel
  have path : pathFor ⟨"etc", "90-"⟩ "eth0" = "etc/90-eth0.yaml" := by decide +kernel
  have backup : backupFor ⟨"etc", "90-"⟩ "eth0" = "etc/90-eth0.yaml.bkp" := by decide +kernel
  have ready := tidy.ready sound fun missing => by cases home.symm.trans missing
  have aside := tidy.aside sound (Part.backup.names (FileStore.front ⟨"etc", "90-"⟩ "eth0"))
    (Part.name_ne (by decide) _)
  have isNew : hindered.glance (pathFor ⟨"etc", "90-"⟩ "eth0") = some (.ok "new".toUTF8) := by
    decide +kernel
  have isReadable : hindered.read "etc/90-eth0.yaml" = .ok "new".toUTF8 := by decide +kernel
  have isOld : hindered.read (backupFor ⟨"etc", "90-"⟩ "eth0") = .ok "old".toUTF8 := by
    decide +kernel
  have fails : (world.perform (save ⟨"etc", "90-"⟩ (.skeleton "eth0"))).1 =
      .error (.notWritten "etc/90-eth0.yaml.tmp" (.numbered .isADirectory)) := by decide +kernel
  obtain ⟨trace, traced, _⟩ := world.perform_traced (save ⟨"etc", "90-"⟩ (.skeleton "eth0"))
  rw [fails] at traced
  have keeps := @save_keeps_backup true _ _ trace _ (.skeleton "eth0") ⟨"etc", "90-"⟩ _ ready aside
    (fun cause same => by cases isNew.symm.trans same) isOld traced
  have interface : (Document.skeleton "eth0").interface = "eth0" := rfl
  rw [interface, path, backup] at keeps
  refine ⟨trace, _, _, traced, ?_⟩
  rcases keeps with kept | ⟨current, reads, _, doubled⟩ | ⟨cause, _, linking, _⟩
  · exact Or.inl kept
  · cases isReadable.symm.trans reads
    exact Or.inr (Or.inl doubled)
  · exact Or.inr (Or.inr ⟨cause, linking⟩)

/-- A save that fails can lose the backup: where the document is a directory, the old backup is
removed first, and then there is nothing that could be linked or copied in its place. -/
theorem backup_lost :
    ¬ ∀ (store : FileStore) (document : Document) (start last : FileSystem)
      (trace : List Exchange) (error : SaveError) (old : ByteArray),
      start.read (store.backupFor document.interface) = .ok old →
      Traced true start (store.save document) trace (.error error) last →
      last.read (store.backupFor document.interface) = .ok old ∨
        ∃ current, last.read (store.pathFor document.interface) = .ok current ∧
          last.read (store.backupFor document.interface) = .ok current := by
  intro always
  let world : World := { files := obstructed, host := fun _ _ _ => .error .absent }
  have isOld : obstructed.read (backupFor ⟨"etc", "90-vz-"⟩ "eth0") = .ok "old".toUTF8 := by
    decide +kernel
  have fails : (world.perform (save ⟨"etc", "90-vz-"⟩ (.skeleton "eth0"))).1 =
      .error (.notBackedUp "etc/90-vz-eth0.yaml" "etc/90-vz-eth0.yaml.bkp" .notAFile) := by
    decide +kernel
  have lost : (world.perform (save ⟨"etc", "90-vz-"⟩ (.skeleton "eth0"))).2.files.read
      (backupFor ⟨"etc", "90-vz-"⟩ "eth0") = .error (.numbered .noEntry) := by decide +kernel
  obtain ⟨trace, traced, _⟩ := world.perform_traced (save ⟨"etc", "90-vz-"⟩ (.skeleton "eth0"))
  rw [fails] at traced
  rcases always ⟨"etc", "90-vz-"⟩ (.skeleton "eth0") _ _ _ _ _ isOld traced with
    kept | ⟨current, _, kept⟩
  · cases lost.symm.trans kept
  · cases lost.symm.trans kept

end Backup

end FileStore

end NetplanEditor
