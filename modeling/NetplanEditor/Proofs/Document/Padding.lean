import NetplanEditor.Config.Basic
import NetplanEditor.Proofs.Document.Routes
import NetplanEditor.Proofs.Route.Grammar

/-!
# Blanks around a route token

The blanks around a token are not part of the route that it describes, but they are part of a removal:
only a token that is a removal as it stands removes routes, and one with blanks around it is read like
any other token, as a route from `re` through `ove`. So blanks do not matter unless what is between
them is a removal, and they never matter to what is typed on a command line, where the token is
trimmed before a document sees it (`setRoute_padded`).
-/

namespace NetplanEditor.Document

open Text (Trims)

variable {document : Document} {token core : String} {family : Family}

/-- No blanks stand around a removal. -/
theorem trims_of_removal (removes : removal? token = some family) :
    Trims token.toList token.toList := by
  unfold removal? removeToken removeToken6 at removes
  rw [Text.trims_iff]
  split at removes
  next isRemove =>
    subst isRemove
    decide
  · split at removes
    next isRemove6 =>
      subst isRemove6
      decide
    · cases removes

/-- A token that is a removal as it stands is all there is to it. -/
theorem core_of_removal (trims : Trims token.toList core.toList)
    (removes : removal? token = some family) : core = token := by
  have own := Text.trims_iff.mp (trims_of_removal removes)
  rw [Text.trims_iff.mp trims] at own
  exact String.toList_inj.mp own

/-- Blanks around a token do not matter, unless there are some around a removal. -/
theorem setRoute_of_trims (trims : Trims token.toList core.toList)
    (plain : token = core ∨ removal? core = none) :
    document.setRoute token = (document.setRoute core).mapError (RouteError.about token) := by
  unfold setRoute
  cases removes : removal? token with
  | some family =>
      rw [core_of_removal trims removes, removes]
      rfl
  | none =>
      have coreIsNone : removal? core = none := by
        rcases plain with rfl | none
        · exact removes
        · exact none
      rw [coreIsNone]
      dsimp only
      rw [Route.parse_of_trims trims]
      cases Route.parse core <;> rfl

/-- A removal with blanks around it is read as the route that the letter in it separates. -/
theorem setRoute_of_padded {route : Route} (trims : Trims token.toList core.toList)
    (padded : token ≠ core) (reads : Route.parse core = .ok route) :
    document.setRoute token = .ok (document.addRoute route) := by
  have noRemoval : removal? token = none := by
    rw [Option.eq_none_iff_forall_ne_some]
    exact fun family removes => padded (core_of_removal trims removes).symm
  unfold setRoute
  rw [noRemoval]
  dsimp only
  rw [Route.parse_of_trims trims, reads]
  rfl

/-- A token means the same with and without the blanks around it: it leaves the same document, and the
same update is reported, or the same fault of the token that was given. Only where there are blanks
around a removal it is no removal, but a route. A command line gives the token without them. -/
theorem setRoute_padded (document : Document) (token core : String)
    (trims : Trims token.toList core.toList) :
    (token = core ∨ core ≠ "remove" ∧ core ≠ "remove6" →
      document.routed token = document.routed core ∧
        document.report token = (document.report core).mapError (RouteError.about token)) ∧
    (token ≠ core → core = "remove" →
      document.setRoute token = .ok (document.addRoute ⟨"re", "ove", none⟩)) ∧
    (token ≠ core → core = "remove6" →
      document.setRoute token = .ok (document.addRoute ⟨"re", "ove6", none⟩)) ∧
    ∀ arguments : Arguments, arguments.ip = some token →
      Config.actionOf arguments .setRoute = .ok (.change (.setRoute core)) := by
  refine ⟨fun plain => ?_, fun padded isRemove => ?_, fun padded isRemove => ?_,
    fun arguments given => ?_⟩
  · have noRemoval : token = core ∨ removal? core = none := by
      refine plain.imp_right fun ⟨notRemove, notRemove6⟩ => ?_
      rw [removal?, removeToken, removeToken6, if_neg notRemove, if_neg notRemove6]
    have same : document.setRoute token = (document.setRoute core).mapError (RouteError.about token) :=
      setRoute_of_trims trims noRemoval
    unfold routed report
    rw [same]
    cases document.setRoute core <;> exact ⟨rfl, rfl⟩
  · exact setRoute_of_padded trims padded (isRemove ▸ by decide +kernel)
  · exact setRoute_of_padded trims padded (isRemove ▸ by decide +kernel)
  · have trimmed : Text.trim token = core := Text.trim_eq_iff.mpr trims
    simp only [Config.actionOf, given, Config.demand, bind, Except.bind, trimmed]
    rfl

/-- A route between blanks of several kinds is the one without them, and a padded token without a
gateway is reported as it was typed. The padded removal that a command line is given removes. -/
theorem setRoute_padded_typed :
    Trims "\t\u2003default=10.0.0.1m+07 ".toList "default=10.0.0.1m+07".toList ∧
      gated.report "\t\u2003default=10.0.0.1m+07 " = .ok (.added ⟨"default", "10.0.0.1", some 7⟩) ∧
      gated.report " default " = .error (.missingGateway " default ") ∧
      gated.setRoute "remove6\n" = .ok (gated.addRoute ⟨"re", "ove6", none⟩) ∧
      Config.actionOf { ip := some " remove " } .setRoute = .ok (.change (.setRoute "remove")) := by
  have trims : Trims "\t\u2003default=10.0.0.1m+07 ".toList "default=10.0.0.1m+07".toList :=
    Text.trims_iff.mpr (by decide)
  have added : gated.report "default=10.0.0.1m+07" =
      .ok (.added ⟨"default", "10.0.0.1", some 7⟩) := by decide +kernel
  have fails : gated.report "default" = .error (.missingGateway "default") := by decide +kernel
  obtain ⟨routes, _⟩ := setRoute_padded gated _ _ trims
  obtain ⟨faults, _⟩ := setRoute_padded gated " default " "default" (Text.trims_iff.mpr (by decide))
  obtain ⟨_, _, strays, _⟩ :=
    setRoute_padded gated "remove6\n" "remove6" (Text.trims_iff.mpr (by decide))
  obtain ⟨_, _, _, typed⟩ :=
    setRoute_padded gated " remove " "remove" (Text.trims_iff.mpr (by decide))
  refine ⟨trims, ?_, ?_, strays (by decide) rfl, typed { ip := some " remove " } rfl⟩
  · rw [(routes (Or.inr (by decide))).2, added]
    rfl
  · rw [(faults (Or.inr (by decide))).2, fails]
    rfl

/-- With blanks around it, the token that removes an IPv4 route adds one instead. -/
theorem padded_removal_adds :
    Trims " remove ".toList "remove".toList ∧
      gated.report "remove" = .ok (.removed .v4 1) ∧
      (gated.routed "remove").routeList = [⟨"default", "10.0.0.1", none⟩] ∧
      gated.report " remove " = .ok (.added ⟨"re", "ove", none⟩) ∧
      (gated.routed " remove ").routeList =
        [⟨"10.0.0.0/8", "10.0.0.1", none⟩, ⟨"default", "10.0.0.1", none⟩, ⟨"re", "ove", none⟩] :=
  ⟨Text.trims_iff.mpr (by decide), by decide +kernel, by decide +kernel, by decide +kernel,
    by decide +kernel⟩

end NetplanEditor.Document
