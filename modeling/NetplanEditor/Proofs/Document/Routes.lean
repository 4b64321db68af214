import Mathlib.Data.List.Induction
import Mathlib.Data.List.Nodup
import NetplanEditor.Proofs.Document.Edits

/-!
# The routes as a set in order

Tokens that are worked off one after the other add routes, remove the routes of a family, or are
malformed and change nothing. The list of routes they leave has no route twice. Which routes are in
it depends only on the last moment that each was there or asked for (`Lives`), and where they stand
depends on when they were appended last (`Precedes`). `setRoute_effect` is about one token and
`routedBy_set` about all of them.
-/

namespace NetplanEditor

/-- The routes of a family are the ones whose destination has its mark. -/
theorem Family.owns_iff (family : Family) (address : String) :
    family.owns address = true ↔ family.mark ∈ address.toList := by
  simp [Family.owns, Text.hasChar]

namespace Document

variable {document before : Document} {token : String} {tokens : List String} {route : Route}
  {start : List Route}

/-! ## Tokens -/

/-- The route that a token asks for, if it is no removal and describes one. -/
def asked? (token : String) : Option Route :=
  match removal? token with
  | some _ => none
  | none => (Route.parse token).toOption

/-- The token removes routes with a destination like that of the route. -/
def Removes (token : String) (route : Route) : Prop :=
  token = "remove" ∧ '.' ∈ route.destination.toList ∨
    token = "remove6" ∧ ':' ∈ route.destination.toList

theorem removes_iff :
    Removes token route ↔
      ∃ family, removal? token = some family ∧ family.owns route.destination = true := by
  unfold Removes removal? removeToken removeToken6
  constructor
  · rintro (⟨rfl, dot⟩ | ⟨rfl, colon⟩)
    · exact ⟨.v4, rfl, (Family.owns_iff .v4 _).mpr dot⟩
    · exact ⟨.v6, rfl, (Family.owns_iff .v6 _).mpr colon⟩
  · rintro ⟨family, removes, owned⟩
    rw [Family.owns_iff] at owned
    split at removes
    next isRemove =>
      cases removes
      exact Or.inl ⟨isRemove, owned⟩
    · split at removes
      next isRemove6 =>
        cases removes
        exact Or.inr ⟨isRemove6, owned⟩
      · cases removes

theorem asked?_eq_some :
    asked? token = some route ↔ removal? token = none ∧ Route.parse token = .ok route := by
  unfold asked?
  cases removal? token with
  | some family => simp
  | none => cases Route.parse token <;> simp [Except.toOption]

/-! ## One token -/

/-- The routes of the document; without their key there are none. -/
def routeList (document : Document) : List Route := document.entry.routes.getD []

/-- What is reported for a token. -/
def report (document : Document) (token : String) : Except RouteError RouteUpdate :=
  (document.setRoute token).map Prod.fst

/-- The document that a token leaves. -/
def routed (document : Document) (token : String) : Document :=
  match document.setRoute token with
  | .ok (_, after) => after
  | .error _ => document

/-- What a token does, and what is reported for it. -/
structure Effect (before : Document) (token : String) : Prop where
  /-- Routes are removed by family, all of them and no others, and counted. -/
  removal : ∀ family, removal? token = some family →
    before.report token = .ok (.removed family
      (before.routeList.countP fun route => family.owns route.destination)) ∧
    (before.routed token).routeList =
      before.routeList.filter fun route => !family.owns route.destination
  /-- A route is appended if it is not there, and otherwise nothing changes. -/
  addition : ∀ route, asked? token = some route →
    (before.report token = .ok (.added route) ↔
      route ∉ before.routeList ∧ (before.routed token).routeList = before.routeList ++ [route]) ∧
    (before.report token = .ok (.alreadyPresent route) ↔
      route ∈ before.routeList ∧ before.routed token = before) ∧
    (before.report token = .ok (.added route) ∨ before.report token = .ok (.alreadyPresent route))
  /-- A malformed token changes nothing, and its fault is reported. -/
  malformed : ∀ error, removal? token = none → Route.parse token = .error error →
    before.report token = .error error ∧ before.routed token = before

theorem removeRoutes_effect {family : Family} (removes : removal? token = some family) :
    before.report token = .ok (.removed family
      (before.routeList.countP fun route => family.owns route.destination)) ∧
    (before.routed token).routeList =
      before.routeList.filter fun route => !family.owns route.destination := by
  have set : before.setRoute token = .ok (before.removeRoutes family) := by
    rw [setRoute, removes]
  refine ⟨?_, ?_⟩
  · have counted := List.length_eq_countP_add_countP
      (fun route : Route => family.owns route.destination) (l := before.routeList)
    have kept : (before.routeList.filter fun route => !family.owns route.destination).length =
        before.routeList.countP fun route => !family.owns route.destination :=
      List.countP_eq_length_filter.symm
    have count : before.routeList.length -
        (before.routeList.filter fun route => !family.owns route.destination).length =
          before.routeList.countP fun route => family.owns route.destination := by
      simp only [decide_not, Bool.decide_eq_true] at counted
      omega
    rw [report, set, ← count]
    rfl
  · rw [routed, set]
    rfl

theorem setRoute_of_asked (asks : asked? token = some route) :
    before.setRoute token = .ok (before.addRoute route) := by
  obtain ⟨noRemoval, parses⟩ := asked?_eq_some.mp asks
  rw [setRoute, noRemoval]
  dsimp only
  rw [parses]
  rfl

theorem addition_absent (asks : asked? token = some route) (absent : route ∉ before.routeList) :
    before.report token = .ok (.added route) ∧
      (before.routed token).routeList = before.routeList ++ [route] := by
  have set : before.setRoute token = .ok (before.addRoute route) := setRoute_of_asked asks
  have notThere : ¬ (before.entry.routes.getD []).contains route = true := by
    rwa [List.contains_iff_mem]
  rw [addRoute, if_neg notThere] at set
  rw [report, routed, set]
  exact ⟨rfl, rfl⟩

theorem addition_present (asks : asked? token = some route) (present : route ∈ before.routeList) :
    before.report token = .ok (.alreadyPresent route) ∧ before.routed token = before := by
  have set : before.setRoute token = .ok (before.addRoute route) := setRoute_of_asked asks
  have there : (before.entry.routes.getD []).contains route = true := by
    rwa [List.contains_iff_mem]
  rw [routed, report, set]
  constructor
  · rw [addRoute, if_pos there]
    rfl
  · cases given : before.entry.routes with
    | none =>
        rw [routeList, given] at present
        cases present
    | some routes =>
        rw [routeList, given] at present
        exact addRoute_of_mem given present

/-- Every token does what it asks for, and what is reported is what was done. -/
theorem setRoute_effect (before : Document) (token : String) : Effect before token := by
  refine ⟨fun family removes => removeRoutes_effect removes, fun route asks => ?_, ?_⟩
  · by_cases there : route ∈ before.routeList
    · obtain ⟨reported, same⟩ := addition_present asks there
      rw [reported]
      refine ⟨⟨fun other => (by cases other), fun absent => (absent.1 there).elim⟩,
        ⟨fun _ => ⟨there, same⟩, fun _ => rfl⟩, Or.inr rfl⟩
    · obtain ⟨reported, appended⟩ := addition_absent asks there
      rw [reported]
      refine ⟨⟨fun _ => ⟨there, appended⟩, fun _ => rfl⟩,
        ⟨fun other => (by cases other), fun present => (there present.1).elim⟩, Or.inl rfl⟩
  · intro error noRemoval fails
    have set : before.setRoute token = .error error := by
      rw [setRoute, noRemoval]
      dsimp only
      rw [fails]
      rfl
    rw [report, routed, set]
    exact ⟨rfl, rfl⟩

/-- A token leaves the routes that it does not remove, and the one that it asks for. -/
theorem mem_routed :
    route ∈ (before.routed token).routeList ↔
      asked? token = some route ∨ ¬ Removes token route ∧ route ∈ before.routeList := by
  have effect := setRoute_effect before token
  cases removes : removal? token with
  | some family =>
      have asksNone : asked? token = none := by rw [asked?, removes]
      have removed : Removes token route ↔ family.owns route.destination = true := by
        rw [removes_iff, removes]
        simp
      rw [(effect.removal family removes).2, List.mem_filter, asksNone, removed]
      simp [and_comm]
  | none =>
      have keeps : ¬ Removes token route := by
        intro removed
        obtain ⟨family, isRemoval, _⟩ := removes_iff.mp removed
        cases isRemoval.symm.trans removes
      cases parses : Route.parse token with
      | error error =>
          have asksNone : asked? token = none := by rw [asked?, removes, parses]; rfl
          rw [(effect.malformed error removes parses).2, asksNone]
          simp [keeps]
      | ok other =>
          have asks := asked?_eq_some.mpr ⟨removes, parses⟩
          rw [asks, Option.some_inj]
          by_cases there : other ∈ before.routeList
          · rw [(addition_present asks there).2]
            constructor
            · exact fun present => Or.inr ⟨keeps, present⟩
            · rintro (rfl | ⟨_, present⟩)
              · exact there
              · exact present
          · rw [(addition_absent asks there).2, List.mem_append, List.mem_singleton]
            simp [keeps, or_comm, eq_comm]

/-- A token leaves some of the routes in their order, or it appends one that was not there. -/
theorem routed_cases (before : Document) (token : String) :
    ((before.routed token).routeList.Sublist before.routeList ∧
      ∀ route, before.report token ≠ .ok (.added route)) ∨
    ∃ route, route ∉ before.routeList ∧ before.report token = .ok (.added route) ∧
      (before.routed token).routeList = before.routeList ++ [route] := by
  have effect := setRoute_effect before token
  cases removes : removal? token with
  | some family =>
      obtain ⟨reported, kept⟩ := effect.removal family removes
      rw [reported, kept]
      exact Or.inl ⟨List.filter_sublist, fun route => by simp⟩
  | none =>
      cases parses : Route.parse token with
      | error error =>
          obtain ⟨reported, same⟩ := effect.malformed error removes parses
          rw [reported, same]
          exact Or.inl ⟨.refl _, fun route => by simp⟩
      | ok route =>
          have asks := asked?_eq_some.mpr ⟨removes, parses⟩
          by_cases there : route ∈ before.routeList
          · obtain ⟨reported, same⟩ := addition_present asks there
            rw [reported, same]
            exact Or.inl ⟨.refl _, fun route => by simp⟩
          · exact Or.inr ⟨route, there, addition_absent asks there⟩

/-! ## Tokens one after the other -/

/-- The document that the tokens leave. -/
def routedBy (document : Document) (tokens : List String) : Document :=
  tokens.foldl routed document

theorem routedBy_concat (document : Document) (tokens : List String) (token : String) :
    document.routedBy (tokens ++ [token]) = (document.routedBy tokens).routed token := by
  rw [routedBy, List.foldl_concat, routedBy]

/-- What is reported for the tokens. -/
def reports (document : Document) : List String → List (Except RouteError RouteUpdate)
  | [] => []
  | token :: tokens => document.report token :: (document.routed token).reports tokens

theorem reports_concat (document : Document) (tokens : List String) (token : String) :
    document.reports (tokens ++ [token]) =
      document.reports tokens ++ [(document.routedBy tokens).report token] := by
  induction tokens generalizing document with
  | nil => rfl
  | cons first tokens ih => exact congrArg (document.report first :: ·) (ih _)

theorem length_reports (document : Document) (tokens : List String) :
    (document.reports tokens).length = tokens.length := by
  induction tokens generalizing document with
  | nil => rfl
  | cons first tokens ih => exact congrArg (· + 1) (ih _)

/-- The place of the last token that appended the route. -/
def lastAppended (document : Document) (tokens : List String) (route : Route) : Option Nat :=
  ((document.reports tokens).zipIdx.filter
    fun (report, _) => report = .ok (.added route)).getLast?.map Prod.snd

theorem lastAppended_concat (document : Document) (tokens : List String) (token : String)
    (route : Route) :
    document.lastAppended (tokens ++ [token]) route =
      if (document.routedBy tokens).report token = .ok (.added route) then some tokens.length
      else document.lastAppended tokens route := by
  unfold lastAppended
  rw [reports_concat, List.zipIdx_append, List.filter_append, length_reports]
  split
  next appends => simp [appends]
  next other => simp [other]

theorem lastAppended_lt {place : Nat} (appended : document.lastAppended tokens route = some place) :
    place < tokens.length := by
  induction tokens using List.reverseRecOn with
  | nil => cases appended
  | append_singleton tokens token ih =>
      rw [lastAppended_concat] at appended
      rw [List.length_append, List.length_singleton]
      split at appended
      · cases appended
        exact Nat.lt_succ_self _
      · exact Nat.lt_succ_of_lt (ih appended)

/-- There is a last moment when the route was there at the start or a token asked for it, and no
token has removed it since. -/
def Lives (start : List Route) (tokens : List String) (route : Route) : Prop :=
  ∃ earlier later, tokens = earlier ++ later ∧
    (earlier = [] ∧ route ∈ start ∨ earlier.getLast?.bind asked? = some route) ∧
    ∀ token ∈ later, asked? token ≠ some route ∧ ¬ Removes token route

theorem lives_nil : Lives start [] route ↔ route ∈ start := by
  constructor
  · rintro ⟨earlier, later, split, named, _⟩
    obtain ⟨rfl, rfl⟩ := List.nil_eq_append_iff.mp split
    rcases named with ⟨_, there⟩ | asks
    · exact there
    · cases asks
  · intro there
    exact ⟨[], [], rfl, Or.inl ⟨rfl, there⟩, fun token none => (List.not_mem_nil none).elim⟩

theorem lives_concat :
    Lives start (tokens ++ [token]) route ↔
      asked? token = some route ∨ ¬ Removes token route ∧ Lives start tokens route := by
  constructor
  · rintro ⟨earlier, later, split, named, since⟩
    rcases List.eq_nil_or_concat later with rfl | ⟨between, last, rfl⟩
    · rw [List.append_nil] at split
      subst split
      rcases named with ⟨none, _⟩ | asks
      · simp at none
      · rw [List.getLast?_concat] at asks
        exact Or.inl asks
    · rw [List.concat_eq_append, ← List.append_assoc] at split
      obtain ⟨rfl, same⟩ := List.append_inj' split rfl
      cases same
      rw [List.concat_eq_append] at since
      refine Or.inr ⟨(since token (by simp)).2, earlier, between, rfl, named, ?_⟩
      exact fun other member => since other (List.mem_append_left _ member)
  · by_cases asks : asked? token = some route
    · intro _
      refine ⟨tokens ++ [token], [], (List.append_nil _).symm, Or.inr ?_,
        fun token none => (List.not_mem_nil none).elim⟩
      rw [List.getLast?_concat]
      exact asks
    · rintro (asksNow | ⟨keeps, earlier, later, rfl, named, since⟩)
      · exact (asks asksNow).elim
      · refine ⟨earlier, later ++ [token], List.append_assoc .., named, fun other member => ?_⟩
        rcases List.mem_append.mp member with old | new
        · exact since other old
        · rw [List.mem_singleton.mp new]
          exact ⟨asks, keeps⟩

/-- The first of the two routes stands before the second: it was appended last before it, or never,
and routes that were never appended stand as they did at the start. -/
def Precedes (document : Document) (tokens : List String) (a b : Route) : Prop :=
  match document.lastAppended tokens a, document.lastAppended tokens b with
  | none, none => [a, b].Sublist document.routeList
  | none, some _ => True
  | some _, none => False
  | some i, some j => i < j

theorem mem_routedBy :
    route ∈ (document.routedBy tokens).routeList ↔ Lives document.routeList tokens route := by
  induction tokens using List.reverseRecOn with
  | nil => exact lives_nil.symm
  | append_singleton tokens token ih => rw [routedBy_concat, mem_routed, ih, lives_concat]

/-- No route comes in twice, and a route that is appended comes behind all others. -/
theorem ordered_routedBy (distinct : document.routeList.Nodup) (tokens : List String) :
    (document.routedBy tokens).routeList.Nodup ∧
      (document.routedBy tokens).routeList.Pairwise (Precedes document tokens) := by
  induction tokens using List.reverseRecOn with
  | nil => exact ⟨distinct, List.pairwise_of_forall_sublist fun sublist => sublist⟩
  | append_singleton tokens token ih =>
      obtain ⟨nodup, ordered⟩ := ih
      rw [routedBy_concat]
      rcases routed_cases (document.routedBy tokens) token with ⟨kept, notAdded⟩ |
        ⟨route, absent, reported, appended⟩
      · have same : Precedes document (tokens ++ [token]) = Precedes document tokens := by
          funext a b
          simp only [Precedes, lastAppended_concat, notAdded, if_false]
        rw [same]
        exact ⟨nodup.sublist kept, ordered.sublist kept⟩
      · -- Only the route that comes in gets another place.
        have place (other : Route) : document.lastAppended (tokens ++ [token]) other =
            if other = route then some tokens.length else document.lastAppended tokens other := by
          rw [lastAppended_concat, reported]
          by_cases same : other = route
          · simp [same]
          · simp [same, Ne.symm same]
        have differs {other : Route} (there : other ∈ (document.routedBy tokens).routeList) :
            other ≠ route := fun same => absent (same ▸ there)
        rw [appended]
        constructor
        · exact List.nodup_append.mpr ⟨nodup, List.nodup_singleton _, fun other there last single =>
            List.mem_singleton.mp single ▸ differs there⟩
        · refine List.pairwise_append.mpr ⟨?_, List.pairwise_singleton _ _, ?_⟩
          · refine ordered.imp_of_mem fun {a b} aThere bThere precedes => ?_
            unfold Precedes at precedes ⊢
            rwa [place, place, if_neg (differs aThere), if_neg (differs bThere)]
          · intro other there last single
            rw [List.mem_singleton.mp single]
            unfold Precedes
            rw [place, place, if_neg (differs there), if_pos rfl]
            cases before : document.lastAppended tokens other with
            | none => trivial
            | some i => exact lastAppended_lt before

/-- Tokens keep the routes a set in order. After any of them no route is there twice; a route is there
if it was there at the start or some token asked for it, and no removal of its family came after the
last such moment; routes stand in the order in which they were appended last, behind those of the
start; and every token did what was reported for it. -/
theorem routedBy_set (document : Document) (tokens : List String)
    (distinct : document.routeList.Nodup) :
    (document.routedBy tokens).routeList.Nodup ∧
    (∀ route, route ∈ (document.routedBy tokens).routeList ↔
      Lives document.routeList tokens route) ∧
    (document.routedBy tokens).routeList.Pairwise (Precedes document tokens) ∧
    ∀ earlier token later, tokens = earlier ++ token :: later →
      Effect (document.routedBy earlier) token := by
  obtain ⟨nodup, ordered⟩ := ordered_routedBy distinct tokens
  exact ⟨nodup, fun _ => mem_routedBy, ordered, fun _ token _ _ => setRoute_effect _ token⟩

/-- A default route of an interface, and a route to a network behind it. -/
def gated : Document where
  interface := "eth0"
  entry :=
    { routes := some [⟨"10.0.0.0/8", "10.0.0.1", none⟩, ⟨"default", "10.0.0.1", none⟩] }

/-- A destination that is an IPv4 address within an IPv6 one goes with either family, and the default
route goes with neither. -/
def mixed : List String :=
  ["::ffff:10.1.0.0/112=fe80::1", "remove", "default", "10.0.0.0/8=10.0.0.1",
    "::ffff:10.1.0.0/112=fe80::1m7", "default=10.0.0.1", "remove6"]

theorem routedBy_set_mixed :
    gated.routeList.Nodup ∧
      (gated.routedBy mixed).routeList =
        [⟨"default", "10.0.0.1", none⟩, ⟨"10.0.0.0/8", "10.0.0.1", none⟩] ∧
      Lives gated.routeList mixed ⟨"10.0.0.0/8", "10.0.0.1", none⟩ ∧
      ¬ Lives gated.routeList mixed ⟨"::ffff:10.1.0.0/112", "fe80::1", some 7⟩ ∧
      (gated.routedBy (mixed.take 6)).report "remove6" = .ok (.removed .v6 1) := by
  have distinct : gated.routeList.Nodup := by decide
  have left : (gated.routedBy mixed).routeList =
      [⟨"default", "10.0.0.1", none⟩, ⟨"10.0.0.0/8", "10.0.0.1", none⟩] := by decide +kernel
  obtain ⟨_, lives, _, effect⟩ := routedBy_set gated mixed distinct
  refine ⟨distinct, left, (lives _).mp ?_, fun there => ?_, ?_⟩
  · rw [left]
    decide
  · have present := (lives _).mpr there
    rw [left] at present
    revert present
    decide
  · rw [((effect (mixed.take 6) "remove6" [] rfl).removal .v6 rfl).1]
    decide +kernel

end Document

end NetplanEditor
