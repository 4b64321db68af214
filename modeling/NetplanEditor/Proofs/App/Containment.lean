import Mathlib.Data.List.Nodup
import NetplanEditor.Proofs.App.DryRun

/-!
# Where a run keeps its files

Whatever texts a command line and a settings file hold, a run that comes out of them keeps its
document, the backup and the temporary file directly in the directory of the documents: the name of
a document is one component, because the part of it that was typed by someone holds no slash, and it
ends in `.yaml`, so it is neither `.` nor `..` (`resolve_contained`). The names of two interfaces are
never the same, not even if one of them ends like a name of the other, because the end of a name
tells what the file is for (`FileStore.path_inj`).
-/

namespace NetplanEditor

namespace FileStore

/-- A path tells the interface that it belongs to, and what the file is for. -/
theorem path_inj (store : FileStore) {interface other : String} {part mine : Part}
    (plain : '/' ∉ store.start.toList) (configurable : Configurable interface)
    (otherConfigurable : Configurable other)
    (same : part.path (store.front other) = mine.path (store.front interface)) :
    part = mine ∧ other = interface := by
  have components := (part.names (store.front other)).components
  rw [same, (mine.names (store.front interface)).components] at components
  obtain ⟨_, names⟩ := List.append_inj' components (by rw [List.length_singleton, List.length_singleton])
  have sameName : part.name (store.front other) = mine.name (store.front interface) :=
    (List.singleton_inj.mp names).symm
  refine ⟨(Part.name_inj sameName).1, ?_⟩
  by_contra differ
  exact name_ne_of_interface plain configurable otherConfigurable differ part mine sameName

end FileStore

namespace Path

/-- A relative name is put behind the directory, with a slash between them where one is needed. -/
theorem join_relative {dir name : String} (relative : isAbsolute name = false) :
    ∃ gap, (gap = "" ∨ gap = "/") ∧ join dir name = dir ++ gap ++ name := by
  unfold join
  rw [relative, if_neg Bool.false_ne_true]
  split
  · exact ⟨"", Or.inl rfl, by rw [String.append_empty]⟩
  · exact ⟨"/", Or.inr rfl, rfl⟩

end Path

namespace App

open FileStore (Part Configurable)

variable {arguments : Arguments} {settings : Settings} {config : Config}

/-- A run is for an interface that can be configured, and the names of its documents start with a
text without slashes. -/
theorem resolve_checked (resolves : Config.resolve arguments settings = .ok config) :
    Configurable config.interface ∧ '/' ∉ config.filePrefix.toList := by
  obtain ⟨_, _, names, _, starts, _⟩ := Config.parts_of_resolve resolves
  exact ⟨(Config.interfaceOf_eq_ok.mp names).2, (Config.prefixOf_eq_ok.mp starts).2⟩

/-- The name of the document of a run. -/
def documentName (config : Config) : String := config.filePrefix ++ config.interface ++ ".yaml"

/-- The paths that a run uses: of the document, of its backup, and of the file that the next text is
written to. -/
def paths (config : Config) : List String :=
  let path := (storeOf config).pathFor config.interface
  [path, (storeOf config).backupFor config.interface, path ++ FileStore.temporarySuffix]

/-- The parts that the paths of a run are of. -/
def parts : List Part := [.document, .backup, .temporary]

theorem paths_eq (config : Config) :
    paths config = parts.map fun part => part.path ((storeOf config).front config.interface) := by
  rw [paths, FileStore.backupFor_eq, FileStore.pathFor_eq, Part.document_temporary]
  rfl

/-- Each path of a run leads where the directory leads, and from there to one name. -/
theorem part_names (configurable : Configurable config.interface)
    (plain : '/' ∉ config.filePrefix.toList) (part : Part) :
    Path.Names (part.path ((storeOf config).front config.interface))
      (Path.isAbsolute config.configDir) (Path.components config.configDir)
      (config.filePrefix ++ config.interface ++ part.suffix) := by
  have plainStart : '/' ∉ (storeOf config).start.toList := plain
  obtain ⟨folder, last, absolute⟩ := FileStore.front_spec plainStart configurable
  have names := part.names ((storeOf config).front config.interface)
  rw [Part.name, folder, last, absolute] at names
  exact names

/-- The files of a run are in its directory. -/
structure Contained (config : Config) : Prop where
  /-- The path of the document is that of the directory with one name behind it. -/
  document : (storeOf config).pathFor config.interface =
    Path.join config.configDir (documentName config)
  /-- The name never takes the place of the directory. -/
  behind : ∃ gap, (gap = "" ∨ gap = "/") ∧
    Path.join config.configDir (documentName config) =
      config.configDir ++ gap ++ documentName config
  noSlash : '/' ∉ (documentName config).toList
  dot : documentName config ≠ "."
  dots : documentName config ≠ ".."
  paths : paths config =
    let path := (storeOf config).pathFor config.interface
    [path, path ++ ".bkp", path ++ ".tmp"]
  /-- Each path leads where the directory leads, and from there to one name. -/
  inside : ∀ path ∈ App.paths config, ∃ name, '/' ∉ name.toList ∧
    Path.Names path (Path.isAbsolute config.configDir) (Path.components config.configDir) name

theorem contained (configurable : Configurable config.interface)
    (plain : '/' ∉ config.filePrefix.toList) : Contained config := by
  have free : '/' ∉ (config.filePrefix ++ config.interface).toList := by
    rw [String.toList_append, List.mem_append, not_or]
    exact ⟨plain, configurable.no_slash⟩
  have noSlash (part : Part) :
      '/' ∉ (config.filePrefix ++ config.interface ++ part.suffix).toList := by
    rw [String.toList_append, List.mem_append, not_or]
    exact ⟨free, part.suffix_no_slash⟩
  have relative : Path.isAbsolute (documentName config) = false := by
    have absolute := @Path.isAbsolute_append "" (documentName config) (noSlash .document)
    rwa [String.empty_append] at absolute
  have names := part_names configurable plain .document
  refine ⟨rfl, Path.join_relative relative, noSlash .document, names.dot, names.dots, rfl, ?_⟩
  intro path member
  rw [paths_eq] at member
  obtain ⟨part, _, rfl⟩ := List.mem_map.mp member
  exact ⟨_, noSlash part, part_names configurable plain part⟩

/-- Whatever was typed and whatever the settings are, a run keeps its files directly in its directory,
and it shares none of them with a run for another interface. -/
theorem resolve_contained (resolves : Config.resolve arguments settings = .ok config) :
    Contained config ∧
      ∀ (others : Arguments) (otherSettings : Settings) (other : Config),
        Config.resolve others otherSettings = .ok other →
        other.configDir = config.configDir → other.filePrefix = config.filePrefix →
        other.interface ≠ config.interface → (paths config ++ paths other).Nodup := by
  obtain ⟨configurable, plain⟩ := resolve_checked resolves
  refine ⟨contained configurable plain, ?_⟩
  intro others otherSettings other otherResolves sameDir samePrefix differ
  obtain ⟨otherConfigurable, _⟩ := resolve_checked otherResolves
  have sameStore : storeOf other = storeOf config := by
    rw [storeOf, sameDir, samePrefix]
    rfl
  let owned : List (String × Part) :=
    parts.map (config.interface, ·) ++ parts.map (other.interface, ·)
  have all : paths config ++ paths other =
      owned.map fun file => file.2.path ((storeOf config).front file.1) := by
    rw [paths_eq, paths_eq, sameStore, List.map_append, List.map_map, List.map_map]
    rfl
  have distinct : owned.Nodup := by
    simp [owned, parts, differ.symm]
  have known : ∀ file ∈ owned, Configurable file.1 := by
    intro file member
    rcases List.mem_append.mp member with mine | its
    · obtain ⟨_, _, rfl⟩ := List.mem_map.mp mine
      exact configurable
    · obtain ⟨_, _, rfl⟩ := List.mem_map.mp its
      exact otherConfigurable
  rw [all]
  refine distinct.map_on fun file member file' member' same => ?_
  obtain ⟨part, interface⟩ :=
    FileStore.path_inj (storeOf config) plain (known file' member') (known file member) same
  exact Prod.ext interface part

/-- An interface can be named like the backup of another, and names can start like the directory
above. -/
def lookalike (device : String) : Arguments where
  action := some .restart
  device := some device
  configDir := some "etc/"
  filePrefix := some ".."

theorem resolve_contained_lookalike :
    ∃ config other, Config.resolve (lookalike "eth0") {} = .ok config ∧
      Config.resolve (lookalike "eth0.yaml.bkp") {} = .ok other ∧
      paths config = ["etc/..eth0.yaml", "etc/..eth0.yaml.bkp", "etc/..eth0.yaml.tmp"] ∧
      Contained config ∧ (paths config ++ paths other).Nodup := by
  let config : Config := ⟨"eth0", .restart, "etc/", "..", "netplan", false, false⟩
  let other : Config := { config with interface := "eth0.yaml.bkp" }
  have resolves : Config.resolve (lookalike "eth0") {} = .ok config := by decide +kernel
  have otherResolves : Config.resolve (lookalike "eth0.yaml.bkp") {} = .ok other := by
    decide +kernel
  obtain ⟨contained, apart⟩ := resolve_contained resolves
  exact ⟨config, other, resolves, otherResolves, by decide +kernel, contained,
    apart _ _ other otherResolves rfl rfl (by decide)⟩

end App

end NetplanEditor
