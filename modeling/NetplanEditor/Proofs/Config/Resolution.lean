import NetplanEditor.Config.Basic
import NetplanEditor.Proofs.Result
import NetplanEditor.Proofs.Text.Pieces

/-!
# The run that arguments and settings determine

A run is checked in five steps: that there is an action, that there is a device, that the name of the
device can be one, that the action has what it needs, and that the names of the documents start with a
text without slashes. The first step that fails is the one that is reported (`resolve_eq_error`), and if
none fails there is a run (`exists_resolve`). Of what the run consists is settled value by value: what
the arguments say comes before what the settings say, and that comes before what is built in
(`Determined`).
-/

namespace NetplanEditor

/-! ## The first of several -/

/-- The value is the first of a list that the property holds for. -/
inductive First {α : Type} (holds : α → Prop) : List α → α → Prop
  | here {x : α} {xs : List α} (own : holds x) : First holds (x :: xs) x
  | later {x y : α} {xs : List α} (passes : ¬ holds x) (rest : First holds xs y) :
      First holds (x :: xs) y

section First

variable {α : Type} {holds : α → Prop} {x y : α} {xs : List α}

theorem not_first_nil : ¬ First holds [] y := by
  rintro ⟨⟩

theorem first_cons : First holds (x :: xs) y ↔ holds x ∧ x = y ∨ ¬ holds x ∧ First holds xs y := by
  constructor
  · rintro (own | ⟨passes, rest⟩)
    · exact Or.inl ⟨own, rfl⟩
    · exact Or.inr ⟨passes, rest⟩
  · rintro (⟨own, rfl⟩ | ⟨passes, rest⟩)
    · exact .here own
    · exact .later passes rest

/-- If the property holds for one, there is a first. -/
theorem exists_first (member : x ∈ xs) (own : holds x) : ∃ y, First holds xs y ∧ holds y := by
  induction xs with
  | nil => cases member
  | cons head rest ih =>
      by_cases first : holds head
      · exact ⟨head, .here first, first⟩
      · rcases List.mem_cons.mp member with rfl | later
        · exact (first own).elim
        · exact (ih later).imp fun _ => And.imp_left (.later first)

/-- A choice between the head and what a search through the rest gives is a search. -/
theorem ite_eq_some_iff {c : Prop} [Decidable c] {found : Option α} (own : c ↔ holds x)
    (rest : found = some y ↔ First holds xs y) :
    (if c then some x else found) = some y ↔ First holds (x :: xs) y := by
  rw [first_cons, ← own, ← rest]
  split <;> simp_all

end First

/-! ## Checks in a row -/

/-- The first check of the list that fails at all fails with the error. -/
def Reports {κ ε : Type} (fails : κ → ε → Prop) (checks : List κ) (error : ε) : Prop :=
  ∃ check, First (fun check => ∃ error, fails check error) checks check ∧ fails check error

section Reports

variable {κ ε α β : Type} {fails : κ → ε → Prop} {check : κ} {checks : List κ} {error : ε}

theorem not_reports_nil : ¬ Reports fails [] error := fun ⟨_, first, _⟩ => not_first_nil first

theorem exists_reports (member : check ∈ checks) (failed : fails check error) :
    ∃ error, Reports fails checks error := by
  obtain ⟨earliest, first, cause, blamed⟩ :=
    @exists_first _ (fun check => ∃ error, fails check error) _ _ member ⟨error, failed⟩
  exact ⟨cause, earliest, first, blamed⟩

/-- What is done in two parts fails as the checks do, if the first part fails as the first check does
and the second part as the others. -/
theorem bind_eq_error_iff {x : Except ε α} {f : α → Except ε β}
    (own : ∀ error, x = .error error ↔ fails check error)
    (rest : ∀ value, x = .ok value → (f value = .error error ↔ Reports fails checks error)) :
    x >>= f = .error error ↔ Reports fails (check :: checks) error := by
  cases x with
  | error cause =>
      have failed : ∃ error, fails check error := ⟨cause, (own cause).mp rfl⟩
      have stops : (.error cause >>= f : Except ε β) = .error error ↔ fails check error := by
        rw [← own]
        simp [bind, Except.bind]
      simp only [stops, Reports, first_cons, failed, not_true_eq_false, false_and, or_false,
        true_and, exists_eq_left']
  | ok value =>
      have passed : ¬ ∃ error, fails check error := fun ⟨error, failed⟩ => by
        cases (own error).mpr failed
      simp only [Reports, first_cons, passed, not_false_eq_true, false_and, false_or, true_and]
      exact rest value rfl

end Reports

/-! ## Families and names -/

/-- The ways to name a family. -/
def Family.selectors : Family → List String
  | v4 => ["4", "v4", "ipv4", "inet"]
  | v6 => ["6", "v6", "ipv6", "inet6"]

/-- The text names the family, whatever its case and the blanks around it. -/
def Family.Selects (family : Family) (selector : String) : Prop :=
  ∃ core : String, Text.Trims selector.toList core.toList ∧ Text.lower core ∈ family.selectors

theorem Family.ofSelector?_eq_some {family : Family} {selector : String} :
    ofSelector? selector = some family ↔ family.Selects selector := by
  have names : family.Selects selector ↔ Text.lower (Text.trim selector) ∈ family.selectors := by
    constructor
    · rintro ⟨core, trims, named⟩
      rwa [Text.trim_eq_iff.mpr trims]
    · intro named
      exact ⟨Text.trim selector, Text.trim_eq_iff.mp rfl, named⟩
  rw [names, ofSelector?]
  cases family <;> split <;> simp_all [selectors]

namespace Config

/-- What can be wrong with a name, in the order in which it is looked for. -/
def nameFaults : List NameFault := [.empty, .relative, .tooLong, .forbiddenCharacter]

def HasFault (name : String) : NameFault → Prop
  | .empty => name = ""
  | .relative => name = "." ∨ name = ".."
  | .tooLong => 15 < name.utf8ByteSize
  | .forbiddenCharacter => ∃ c ∈ name.toList, c = '/' ∨ isBlank c = true ∨ c = '\x00'

theorem nameFault?_eq_some {name : String} {fault : NameFault} :
    nameFault? name = some fault ↔ First (HasFault name) nameFaults fault := by
  refine ite_eq_some_iff String.isEmpty_iff (ite_eq_some_iff Iff.rfl (ite_eq_some_iff Iff.rfl
    (ite_eq_some_iff ?_ ?_)))
  · simp [HasFault, or_assoc]
  · simp [not_first_nil]

/-! ## What the checks ask for -/

/-- What is checked before there is a run. -/
inductive Check
  | action
  | device
  /-- The device has a name that an interface can have. -/
  | name
  /-- The action has what it needs. -/
  | payload
  | filePrefix
  deriving DecidableEq, Repr

/-- The checks in their order. -/
def checks : List Check := [.action, .device, .name, .payload, .filePrefix]

theorem mem_checks (check : Check) : check ∈ checks := by
  cases check <;> decide

/-- The kinds of actions that cannot be without addresses or a route. -/
def NeedsIp (kind : ActionKind) : Prop := kind = .setIp ∨ kind = .setGateway ∨ kind = .setRoute

/-- A value comes from the arguments, else from the settings, else it is built in. -/
inductive Chosen (given set : Option String) (builtIn : String) : String → Prop
  | given {value : String} (own : given = some value) : Chosen given set builtIn value
  | set {value : String} (absent : given = none) (own : set = some value) :
      Chosen given set builtIn value
  | builtIn (absent : given = none) (unset : set = none) : Chosen given set builtIn builtIn

/-- Settings that are not there say nothing. -/
theorem chosen_iff {given : Option String} {settings : Option Settings} {builtIn value : String}
    (setting : Settings → Option String) (unset : setting {} = none) :
    Chosen given (settings.bind setting) builtIn value ↔
      (given <|> setting (settings.getD {})).getD builtIn = value := by
  have same : setting (settings.getD {}) = settings.bind setting := by
    cases settings with
    | none => exact unset
    | some settings => rfl
  rw [same]
  generalize settings.bind setting = set
  constructor
  · rintro (rfl | ⟨rfl, rfl⟩ | ⟨rfl, rfl⟩) <;> rfl
  · rintro rfl
    cases given with
    | some value => exact .given rfl
    | none =>
        cases set with
        | some value => exact .set rfl rfl
        | none => exact .builtIn rfl rfl

section Resolve

variable (arguments : Arguments) (settings : Option Settings)

/-- A check fails with an error. -/
inductive Fails : Check → ConfigError → Prop
  | action (absent : arguments.action = none) : Fails .action (.missing .action)
  | device (absent : arguments.device = none) : Fails .device (.missing .device)
  | name {name : String} {fault : NameFault} (given : arguments.device = some name)
      (first : First (HasFault name) nameFaults fault) : Fails .name (.invalidInterface name fault)
  | ip {kind : ActionKind} (asks : arguments.action = some kind) (needs : NeedsIp kind)
      (absent : arguments.ip = none) : Fails .payload (.missing .ip)
  | proto (asks : arguments.action = some .setDhcp) (absent : arguments.proto = none) :
      Fails .payload (.missing .proto)
  | selector {proto : String} (asks : arguments.action = some .getDhcp)
      (given : arguments.proto = some proto) (other : ∀ family : Family, ¬ family.Selects proto) :
      Fails .payload (.invalidProto proto)
  | filePrefix {start : String}
      (chosen : Chosen arguments.filePrefix (settings.bind (·.filePrefix)) "90-vz-" start)
      (slash : '/' ∈ start.toList) : Fails .filePrefix (.invalidPrefix start)

/-- The action that the arguments ask for: addresses and options are the words of what is given for
them, and the blanks around a route are left out. -/
inductive Asks : Action → Prop
  | getDhcp {proto : String} {family : Family} (asks : arguments.action = some .getDhcp)
      (given : arguments.proto = some proto) (selects : family.Selects proto) :
      Asks (.getDhcp family)
  | getDhcpV4 (asks : arguments.action = some .getDhcp) (absent : arguments.proto = none) :
      Asks (.getDhcp .v4)
  | restart (asks : arguments.action = some .restart) : Asks .restart
  | setDhcp {protocols : String} (asks : arguments.action = some .setDhcp)
      (given : arguments.proto = some protocols) : Asks (.change (.setDhcp protocols))
  | setGateway {ip : String} (asks : arguments.action = some .setGateway)
      (given : arguments.ip = some ip) :
      Asks (.change (.setGateway ((Text.runs ip.toList).map String.ofList)))
  | setIp {ip : String} (asks : arguments.action = some .setIp) (given : arguments.ip = some ip) :
      Asks (.change (.setIp ((Text.runs ip.toList).map String.ofList)
        ((Text.runs arguments.options.toList).map String.ofList)))
  | setRoute {ip token : String} (asks : arguments.action = some .setRoute)
      (given : arguments.ip = some ip) (trims : Text.Trims ip.toList token.toList) :
      Asks (.change (.setRoute token))

/-- The arguments and the settings determine every part of the run. -/
structure Determined (config : Config) : Prop where
  interface : arguments.device = some config.interface
  action : Asks arguments config.action
  configDir :
    Chosen arguments.configDir (settings.bind (·.configDir)) "/etc/netplan" config.configDir
  filePrefix :
    Chosen arguments.filePrefix (settings.bind (·.filePrefix)) "90-vz-" config.filePrefix
  netplan : Chosen arguments.netplan (settings.bind (·.command)) "netplan" config.netplan
  dryRun : config.dryRun = arguments.dryRun
  /-- Details are logged if either asks for them. -/
  verbose : config.verbose = true ↔
    arguments.verbose = true ∨ ∃ given, settings = some given ∧ given.verbose = true

/-- Other arguments that differ from these in nothing but what the action does not use, and in where
the settings were read from. -/
structure Alike (other : Arguments) : Prop where
  action : other.action = arguments.action
  device : other.device = arguments.device
  ip : ∀ kind, arguments.action = some kind → NeedsIp kind → other.ip = arguments.ip
  proto : ∀ kind, arguments.action = some kind → kind = .getDhcp ∨ kind = .setDhcp →
    other.proto = arguments.proto
  options : arguments.action = some .setIp → other.options = arguments.options
  configDir : other.configDir = arguments.configDir
  filePrefix : other.filePrefix = arguments.filePrefix
  netplan : other.netplan = arguments.netplan
  dryRun : other.dryRun = arguments.dryRun
  verbose : other.verbose = arguments.verbose

end Resolve

variable {arguments : Arguments} {settings : Option Settings}

/-! ## The parts of a run -/

section Demand

variable {α : Type} {argument : RequiredArgument} {given : Option α}

theorem demand_eq_error {error : ConfigError} :
    demand argument given = .error error ↔ given = none ∧ .missing argument = error := by
  cases given <;> simp [demand]

theorem demand_eq_ok {value : α} : demand argument given = .ok value ↔ given = some value := by
  cases given <;> simp [demand]

end Demand

theorem fails_action {error : ConfigError} :
    demand .action arguments.action = .error error ↔ Fails arguments settings .action error := by
  rw [demand_eq_error]
  constructor
  · rintro ⟨absent, rfl⟩
    exact .action absent
  · rintro ⟨absent⟩
    exact ⟨absent, rfl⟩

theorem fails_device {error : ConfigError} :
    demand .device arguments.device = .error error ↔ Fails arguments settings .device error := by
  rw [demand_eq_error]
  constructor
  · rintro ⟨absent, rfl⟩
    exact .device absent
  · rintro (_ | absent)
    exact ⟨absent, rfl⟩

theorem interfaceOf_eq_ok {interface : String} :
    interfaceOf arguments = .ok interface ↔
      arguments.device = some interface ∧ nameFault? interface = none := by
  constructor
  · intro ok
    obtain ⟨name, given, checked⟩ := bind_eq_ok ok
    split at checked
    · cases checked
    next fine =>
      cases checked
      exact ⟨demand_eq_ok.mp given, fine⟩
  · rintro ⟨given, fine⟩
    rw [interfaceOf, demand_eq_ok.mpr given]
    simp only [bind, Except.bind, fine]
    rfl

/-- A name that cannot be the name of an interface is reported with the first of its faults. -/
theorem fails_name {name : String} {error : ConfigError} (given : arguments.device = some name) :
    (match nameFault? name with
      | some fault => throw (.invalidInterface name fault)
      | none => return name : Except ConfigError String) = .error error ↔
      Fails arguments settings .name error := by
  constructor
  · intro fails
    split at fails
    next fault faults =>
      cases fails
      exact .name given (nameFault?_eq_some.mp faults)
    next => cases fails
  · rintro (_ | _ | ⟨own, first⟩)
    cases given.symm.trans own
    rw [nameFault?_eq_some.mpr first]
    rfl

/-- Nothing is wrong with an action but that it lacks what it needs. -/
theorem fails_payload {kind : ActionKind} {error : ConfigError}
    (asks : arguments.action = some kind) :
    actionOf arguments kind = .error error ↔ Fails arguments settings .payload error := by
  constructor
  · intro fails
    cases kind with
    | getDhcp =>
        cases given : arguments.proto with
        | none =>
            -- The protocol that is built in selects a family.
            simp only [actionOf, given] at fails
            cases fails
        | some proto =>
            simp only [actionOf, given, Option.getD_some] at fails
            cases selected : Family.ofSelector? proto with
            | some family =>
                rw [selected] at fails
                cases fails
            | none =>
                rw [selected] at fails
                cases fails
                refine .selector asks given fun family selects => ?_
                cases selected.symm.trans (Family.ofSelector?_eq_some.mpr selects)
    | restart => cases fails
    | setDhcp =>
        obtain ⟨absent, rfl⟩ := demand_eq_error.mp (map_eq_error.mp fails)
        exact .proto asks absent
    | setGateway | setIp | setRoute =>
        obtain ⟨absent, rfl⟩ := demand_eq_error.mp (map_eq_error.mp fails)
        exact .ip asks (by simp [NeedsIp]) absent
  · intro fails
    cases fails with
    | ip own needs absent =>
        cases asks.symm.trans own
        rcases needs with rfl | rfl | rfl <;> simp only [actionOf, absent] <;> rfl
    | proto own absent =>
        cases asks.symm.trans own
        simp only [actionOf, absent]
        rfl
    | @selector proto own given other =>
        cases asks.symm.trans own
        have unselected : Family.ofSelector? proto = none := by
          rw [Option.eq_none_iff_forall_ne_some]
          exact fun family selects => other family (Family.ofSelector?_eq_some.mp selects)
        simp only [actionOf, given, Option.getD_some, unselected]
        rfl

theorem prefixOf_eq_ok {settings : Settings} {start : String} :
    prefixOf arguments settings = .ok start ↔
      (arguments.filePrefix <|> settings.filePrefix).getD defaultPrefix = start ∧
        '/' ∉ start.toList := by
  unfold prefixOf
  dsimp only
  rw [← Text.hasChar_iff]
  split
  next slash =>
    constructor
    · intro fails
      cases fails
    · rintro ⟨rfl, free⟩
      exact (free slash).elim
  next free =>
    constructor
    · rintro ⟨⟩
      exact ⟨rfl, free⟩
    · rintro ⟨rfl, _⟩
      rfl

theorem fails_filePrefix {error : ConfigError} :
    prefixOf arguments (settings.getD {}) = .error error ↔
      Fails arguments settings .filePrefix error := by
  unfold prefixOf
  dsimp only
  constructor
  · intro fails
    split at fails
    next slash =>
      cases fails
      exact .filePrefix ((chosen_iff (·.filePrefix) rfl).mpr rfl) (Text.hasChar_iff.mp slash)
    next => cases fails
  · rintro (_ | _ | _ | _ | _ | _ | ⟨chosen, slash⟩)
    rw [← (chosen_iff (·.filePrefix) rfl).mp chosen] at slash ⊢
    exact if_pos (Text.hasChar_iff.mpr slash)

/-! ## The run -/

theorem asks_of_ok {kind : ActionKind} {action : Action} (asks : arguments.action = some kind)
    (ok : actionOf arguments kind = .ok action) : Asks arguments action := by
  cases kind with
  | getDhcp =>
      cases given : arguments.proto with
      | none =>
          simp only [actionOf, given] at ok
          cases ok
          exact .getDhcpV4 asks given
      | some proto =>
          simp only [actionOf, given, Option.getD_some] at ok
          split at ok
          next family selected =>
            cases ok
            exact .getDhcp asks given (Family.ofSelector?_eq_some.mp selected)
          next => cases ok
  | restart =>
      cases ok
      exact .restart asks
  | setDhcp =>
      obtain ⟨protocols, given, same⟩ := bind_eq_ok ok
      cases same
      exact .setDhcp asks (demand_eq_ok.mp given)
  | setGateway =>
      obtain ⟨ip, given, same⟩ := bind_eq_ok ok
      cases same
      rw [Text.words_eq]
      exact .setGateway asks (demand_eq_ok.mp given)
  | setIp =>
      obtain ⟨ip, given, same⟩ := bind_eq_ok ok
      cases same
      rw [Text.words_eq, Text.words_eq]
      exact .setIp asks (demand_eq_ok.mp given)
  | setRoute =>
      obtain ⟨ip, given, same⟩ := bind_eq_ok ok
      cases same
      exact .setRoute asks (demand_eq_ok.mp given) (Text.trim_eq_iff.mp rfl)

/-- The first check that fails is the one that is reported. -/
theorem resolve_eq_error {error : ConfigError} :
    resolve arguments (settings.getD {}) = .error error ↔
      Reports (Fails arguments settings) checks error := by
  -- The device is asked for and its name is checked in one part of the run, which is taken apart.
  refine bind_eq_error_iff (fun _ => fails_action) fun kind asks => ?_
  rw [interfaceOf, bind_assoc]
  refine bind_eq_error_iff (fun _ => fails_device) fun name given => ?_
  refine bind_eq_error_iff (fun _ => fails_name (demand_eq_ok.mp given)) fun interface _ => ?_
  refine bind_eq_error_iff (fun _ => fails_payload (demand_eq_ok.mp asks)) fun action _ => ?_
  refine bind_eq_error_iff (fun _ => fails_filePrefix) fun start _ => ?_
  simp [not_reports_nil, pure, Except.pure]

/-- There is a run unless a check fails. -/
theorem exists_resolve :
    (∃ config, resolve arguments (settings.getD {}) = .ok config) ↔
      ∀ check error, ¬ Fails arguments settings check error := by
  constructor
  · rintro ⟨config, resolves⟩ check error fails
    obtain ⟨cause, reports⟩ := exists_reports (mem_checks check) fails
    cases resolves.symm.trans (resolve_eq_error.mpr reports)
  · intro passes
    cases run : resolve arguments (settings.getD {}) with
    | ok config => exact ⟨config, rfl⟩
    | error error =>
        obtain ⟨check, _, fails⟩ := resolve_eq_error.mp run
        exact (passes check error fails).elim

theorem parts_of_resolve {settings : Settings} {config : Config}
    (resolves : resolve arguments settings = .ok config) :
    ∃ kind, arguments.action = some kind ∧ interfaceOf arguments = .ok config.interface ∧
      actionOf arguments kind = .ok config.action ∧
      prefixOf arguments settings = .ok config.filePrefix ∧
      (arguments.configDir <|> settings.configDir).getD defaultDir = config.configDir ∧
      (arguments.netplan <|> settings.command).getD defaultNetplan = config.netplan ∧
      arguments.dryRun = config.dryRun ∧ (arguments.verbose || settings.verbose) = config.verbose := by
  obtain ⟨kind, asks, resolves⟩ := bind_eq_ok resolves
  obtain ⟨interface, names, resolves⟩ := bind_eq_ok resolves
  obtain ⟨action, acts, resolves⟩ := bind_eq_ok resolves
  obtain ⟨start, starts, resolves⟩ := bind_eq_ok resolves
  cases resolves
  exact ⟨kind, demand_eq_ok.mp asks, names, acts, starts, rfl, rfl, rfl, rfl⟩

theorem determined_of_resolve {config : Config}
    (resolves : resolve arguments (settings.getD {}) = .ok config) :
    Determined arguments settings config := by
  obtain ⟨kind, asks, names, acts, starts, directory, program, dry, detailed⟩ :=
    parts_of_resolve resolves
  refine ⟨?_, asks_of_ok asks acts, (chosen_iff (·.configDir) rfl).mpr directory, ?_,
    (chosen_iff (·.command) rfl).mpr program, dry.symm, ?_⟩
  · exact (interfaceOf_eq_ok.mp names).1
  · exact (chosen_iff (·.filePrefix) rfl).mpr (prefixOf_eq_ok.mp starts).1
  · rw [← detailed, Bool.or_eq_true]
    cases settings <;> simp

/-- What the action does not use has no influence. -/
theorem resolve_of_alike {other : Arguments} (alike : Alike arguments other) (settings : Settings) :
    resolve other settings = resolve arguments settings := by
  have sameInterface : interfaceOf other = interfaceOf arguments := by
    rw [interfaceOf, interfaceOf, alike.device]
  have sameAction (kind : ActionKind) (asks : arguments.action = some kind) :
      actionOf other kind = actionOf arguments kind := by
    cases kind with
    | getDhcp => simp only [actionOf, alike.proto _ asks (by simp)]
    | restart => rfl
    | setDhcp => simp only [actionOf, alike.proto _ asks (by simp)]
    | setGateway => simp only [actionOf, alike.ip _ asks (by simp [NeedsIp])]
    | setIp => simp only [actionOf, alike.ip _ asks (by simp [NeedsIp]), alike.options asks]
    | setRoute => simp only [actionOf, alike.ip _ asks (by simp [NeedsIp])]
  have samePrefix : prefixOf other settings = prefixOf arguments settings := by
    rw [prefixOf, prefixOf, alike.filePrefix]
  unfold resolve
  rw [alike.action, sameInterface, samePrefix, alike.configDir, alike.netplan, alike.dryRun,
    alike.verbose]
  cases asks : arguments.action with
  | none => simp only [demand, bind, Except.bind]
  | some kind => simp only [demand, bind, Except.bind, sameAction kind asks]

/-- Of several settings, none has a say in the interface, the action, and whether the run is dry. -/
theorem same_of_resolve {settings others : Settings} {config other : Config}
    (resolves : resolve arguments settings = .ok config)
    (otherResolves : resolve arguments others = .ok other) :
    other.interface = config.interface ∧ other.action = config.action ∧
      other.dryRun = config.dryRun := by
  obtain ⟨kind, asks, names, acts, _, _, _, dry, _⟩ := parts_of_resolve resolves
  obtain ⟨otherKind, otherAsks, otherNames, otherActs, _, _, _, otherDry, _⟩ :=
    parts_of_resolve otherResolves
  cases asks.symm.trans otherAsks
  exact ⟨Except.ok.inj (otherNames.symm.trans names), Except.ok.inj (otherActs.symm.trans acts),
    otherDry.symm.trans dry⟩

/-- There is a run unless a check fails, and then the first check that fails is reported. The arguments
and the settings determine the run part by part. The settings have no say in the interface, the action
and whether the run is dry, and what the action does not use has none in anything. -/
theorem resolve_determined (arguments : Arguments) (settings : Option Settings) :
    (∀ error, resolve arguments (settings.getD {}) = .error error ↔
      Reports (Fails arguments settings) checks error) ∧
    ((∃ config, resolve arguments (settings.getD {}) = .ok config) ↔
      ∀ check error, ¬ Fails arguments settings check error) ∧
    (∀ config, resolve arguments (settings.getD {}) = .ok config →
      Determined arguments settings config) ∧
    (∀ others config other, resolve arguments (settings.getD {}) = .ok config →
      resolve arguments others = .ok other →
        other.interface = config.interface ∧ other.action = config.action ∧
          other.dryRun = config.dryRun) ∧
    ∀ other, Alike arguments other →
      resolve other (settings.getD {}) = resolve arguments (settings.getD {}) :=
  ⟨fun _ => resolve_eq_error, exists_resolve, fun _ => determined_of_resolve,
    fun _ _ _ => same_of_resolve, fun _ alike => resolve_of_alike alike _⟩

/-- Eight letters can be more than fifteen bytes, and that is reported before the protocol is looked
at. A slash in the settings is no fault if the arguments give the names another start. -/
example :
    resolve { action := some .getDhcp, device := some "ääääääää", proto := some "5" } {} =
        .error (.invalidInterface "ääääääää" .tooLong) ∧
      resolve
          { action := some .setIp
            device := some "eth0"
            ip := some " 10.0.0.1/8\u2003\tfe80::1\n"
            filePrefix := some "50-" }
          { configDir := some "/run/netplan", filePrefix := some "a/b" } =
        .ok ⟨"eth0", .change (.setIp ["10.0.0.1/8", "fe80::1"] []), "/run/netplan", "50-", "netplan",
          false, false⟩ := by
  decide +kernel

end Config

end NetplanEditor
