import NetplanEditor.Proofs.Document.Carried

/-!
# What the edits come to

An edit goes through its tokens one by one. Here each edit is brought to a closed form: which token
decides, and what does not matter. The two edits that start over keep nothing of the document but
its interface (`setDhcp_value`, `setIp_value`), the other two leave the rest of the document alone
(`apply_amends`), and every edit that is made again changes nothing (`apply_again`).
-/

namespace NetplanEditor

/-- The character that asks for DHCP of the family. -/
def Family.digit : Family → Char
  | .v4 => '4'
  | .v6 => '6'

/-- The entry with DHCP switched on for the families that are asked for. -/
def Entry.switchOn (entry : Entry) (asked : Family → Bool) : Entry :=
  { entry with
    dhcp4 := if asked .v4 then some true else entry.dhcp4
    dhcp6 := if asked .v6 then some true else entry.dhcp6 }

/-- The edit starts over from the skeleton. -/
def Edit.startsOver : Edit → Bool
  | .setDhcp _ | .setIp .. => true
  | .setGateway _ | .setRoute _ => false

/-- The action makes a change that starts over from the skeleton. -/
def Action.startsOver : Action → Bool
  | .change edit => edit.startsOver
  | .getDhcp _ | .restart => false

namespace Document

/-! ## Starting over -/

/-- It only counts which of the two digits occur. -/
theorem enableDhcp_eq (entry : Entry) (protocols : List Char) :
    enableDhcp entry protocols = entry.switchOn fun family => protocols.contains family.digit := by
  fun_induction enableDhcp entry protocols with
  | case1 entry => rfl
  | case2 entry rest ih =>
      rw [ih]
      simp [Entry.switchOn, Entry.withDhcp, Family.digit]
  | case3 entry rest ih =>
      rw [ih]
      simp [Entry.switchOn, Entry.withDhcp, Family.digit]
  | case4 entry c rest noFour noSix ih =>
      rw [ih]
      simp [Entry.switchOn, Family.digit, Ne.symm noFour, Ne.symm noSix]

/-- It only counts which of the two options occur. -/
theorem applyOptions_value (entry : Entry) (options : List String) :
    (applyOptions entry options).value =
      entry.switchOn fun family => options.contains family.dhcpOption := by
  induction options generalizing entry with
  | nil => rfl
  | cons option options ih =>
      unfold applyOptions
      split
      next isV4 =>
        rw [ih, isV4]
        simp [Entry.switchOn, Entry.withDhcp, Family.dhcpOption]
      next noV4 =>
        split
        next isV6 =>
          rw [ih, isV6]
          simp [Entry.switchOn, Entry.withDhcp, Family.dhcpOption]
        next noV6 =>
          rw [Logged.value_bind, ih]
          simp [Entry.switchOn, Ne.symm noV4, Ne.symm noV6]

/-- The token is an address, and not one that removes routes. -/
def isAddressToken (token : String) : Bool := token != removeToken && token != removeToken6

theorem cidrAll_eq (tokens : List String) :
    cidrAll tokens = (tokens.filter isAddressToken).mapM Address.cidr := by
  induction tokens with
  | nil => rfl
  | cons token tokens ih =>
      unfold cidrAll
      split
      next isRemoval =>
        have skipped : isAddressToken token = false := by
          rcases isRemoval with rfl | rfl <;> decide
        rw [ih, List.filter_cons_of_neg (by simp [skipped])]
      next isNoRemoval =>
        have counted : isAddressToken token = true := by
          simpa [isAddressToken, not_or] using isNoRemoval
        rw [ih, List.filter_cons_of_pos counted, List.mapM_cons]
        cases Address.cidr token with
        | error error => rfl
        | ok address => cases List.mapM Address.cidr (tokens.filter isAddressToken) <;> rfl

/-- What is left of the document is its interface. -/
theorem setDhcp_value (document : Document) (protocols : String) :
    (document.setDhcp protocols).value =
      { interface := document.interface
        entry := Entry.empty.switchOn fun family => protocols.toList.contains family.digit } :=
  congrArg (withEntry (skeleton document.interface)) (enableDhcp_eq _ _)

/-- What is left of the document is its interface. -/
theorem setIp_value (document : Document) (tokens options : List String) :
    (document.setIp tokens options).value =
      ((tokens.filter isAddressToken).mapM Address.cidr).map fun addresses =>
        { interface := document.interface
          entry := { addresses, dhcp4 := some false, dhcp6 := some false : Entry }.switchOn
            fun family => options.contains family.dhcpOption } := by
  rw [← cidrAll_eq]
  unfold setIp
  cases cidrAll tokens with
  | error error => rfl
  | ok addresses =>
      have entry := applyOptions_value
        { addresses, dhcp4 := some false, dhcp6 := some false } options
      exact congrArg (fun entry => Except.ok (withEntry (skeleton document.interface) entry)) entry

/-- The digits among the protocols decide, and the interface. -/
theorem setDhcp_congr {document other : Document} (same : document.interface = other.interface)
    {protocols others : String}
    (digits : ∀ family : Family, family.digit ∈ protocols.toList ↔ family.digit ∈ others.toList) :
    (document.setDhcp protocols).value = (other.setDhcp others).value := by
  have asked : (fun family : Family => protocols.toList.contains family.digit) =
      fun family => others.toList.contains family.digit := by
    funext family
    rw [Bool.eq_iff_iff, List.contains_iff_mem, List.contains_iff_mem]
    exact digits family
  rw [setDhcp_value, setDhcp_value, same, asked]

/-- The tokens that are addresses decide, the options that are known, and the interface. -/
theorem setIp_congr {document other : Document} (same : document.interface = other.interface)
    {tokens otherTokens options otherOptions : List String}
    (addresses : tokens.filter isAddressToken = otherTokens.filter isAddressToken)
    (known : ∀ family : Family, family.dhcpOption ∈ options ↔ family.dhcpOption ∈ otherOptions) :
    (document.setIp tokens options).value = (other.setIp otherTokens otherOptions).value := by
  have asked : (fun family : Family => options.contains family.dhcpOption) =
      fun family => otherOptions.contains family.dhcpOption := by
    funext family
    rw [Bool.eq_iff_iff, List.contains_iff_mem, List.contains_iff_mem]
    exact known family
  rw [setIp_value, setIp_value, same, addresses, asked]

/-- Nothing is carried along over an edit that starts over. -/
theorem apply_fresh {document after : Document} {edit : Edit} (startsOver : edit.startsOver = true)
    (ok : (edit.apply document).value = .ok after) :
    after.entry.extra = [] ∧ after.sections = [] := by
  cases edit with
  | setGateway => cases startsOver
  | setRoute => cases startsOver
  | setDhcp protocols =>
      cases ok
      have carries := document.setDhcp_carries protocols
      exact ⟨carries.extra, carries.sections⟩
  | setIp tokens options =>
      have carries := setIp_carries (mapError_eq_ok ok)
      exact ⟨carries.extra, carries.sections⟩

/-! ## Gateways -/

/-- The token is a gateway, and does not mention a removal. -/
def isGatewayToken (token : String) : Bool := !Text.hasText removeToken token

/-- The family that a token is a gateway of. -/
def gatewayFamily (token : String) : Family := if Family.v6.owns token then .v6 else .v4

/-- The last gateway of the family among the tokens. -/
def lastGateway (family : Family) (tokens : List String) : Option String :=
  (tokens.filter fun token => isGatewayToken token && gatewayFamily token == family).getLast?

theorem lastGateway_cons (family : Family) (token : String) (tokens : List String) :
    lastGateway family (token :: tokens) =
      (lastGateway family tokens).or
        (if isGatewayToken token && gatewayFamily token == family then some token else none) := by
  unfold lastGateway
  rw [List.filter_cons]
  split
  · rw [List.getLast?_cons]
    cases List.getLast? (List.filter _ tokens) <;> rfl
  · rw [Option.or_none]

/-- The last gateway of each family counts, and any gateway at all drops the routes. -/
theorem setGateway_value (document : Document) (tokens : List String) :
    (document.setGateway tokens).value =
      { document with
        entry := { document.entry with
          gateway4 := (lastGateway .v4 tokens).or document.entry.gateway4
          gateway6 := (lastGateway .v6 tokens).or document.entry.gateway6
          routes := if tokens.any isGatewayToken then none else document.entry.routes } } := by
  induction tokens generalizing document with
  | nil => rfl
  | cons token tokens ih =>
      unfold setGateway
      rw [Logged.value_bind, ih, lastGateway_cons, lastGateway_cons, List.any_cons, Option.or_assoc,
        Option.or_assoc]
      unfold setOneGateway
      cases skipped : Text.hasText removeToken token with
      | true => simp [isGatewayToken, skipped]
      | false =>
          cases isV6 : Family.v6.owns token <;>
            simp [isGatewayToken, skipped, gatewayFamily, isV6, withEntry, Entry.withGateway]

/-! ## What an edit leaves alone -/

/-- The second document differs from the first in gateways and routes at most. -/
structure Preserves (before after : Document) : Prop extends Carries before after where
  renderer : after.renderer = before.renderer
  addresses : after.entry.addresses = before.entry.addresses
  dhcp4 : after.entry.dhcp4 = before.entry.dhcp4
  dhcp6 : after.entry.dhcp6 = before.entry.dhcp6

theorem Preserves.refl (document : Document) : document.Preserves document :=
  ⟨.refl document, rfl, rfl, rfl, rfl⟩

theorem Preserves.trans {first second third : Document} (left : first.Preserves second)
    (right : second.Preserves third) : first.Preserves third :=
  ⟨left.toCarries.trans right.toCarries, right.renderer.trans left.renderer,
    right.addresses.trans left.addresses, right.dhcp4.trans left.dhcp4,
    right.dhcp6.trans left.dhcp6⟩

/-- An edit of the routes sets them and nothing else. -/
theorem setRoute_routes {document after : Document} {token : String} {update : RouteUpdate}
    (ok : document.setRoute token = .ok (update, after)) :
    ∃ routes, after = { document with entry := { document.entry with routes := some routes } } := by
  unfold setRoute at ok
  split at ok
  · cases ok
    exact ⟨_, rfl⟩
  · obtain ⟨route, _, added⟩ := map_eq_ok ok
    unfold addRoute at added
    dsimp only at added
    split at added <;> (cases added; exact ⟨_, rfl⟩)

/-- What an edit may have changed that does not start over: gateways only where it sets gateways, and
routes only where it sets routes or to drop them. -/
structure Amends (edit : Edit) (before after : Document) : Prop
    extends Preserves before after where
  setRoute : ∀ token, edit = .setRoute token →
    after.entry.gateway4 = before.entry.gateway4 ∧ after.entry.gateway6 = before.entry.gateway6
  setGateway : ∀ tokens, edit = .setGateway tokens →
    after.entry.routes = before.entry.routes ∨ after.entry.routes = none

theorem Amends.refl (edit : Edit) (document : Document) : document.Amends edit document :=
  ⟨.refl document, fun _ _ => ⟨rfl, rfl⟩, fun _ _ => Or.inl rfl⟩

theorem apply_amends {document after : Document} {edit : Edit} (stays : edit.startsOver = false)
    (ok : (edit.apply document).value = .ok after) : document.Amends edit after := by
  cases edit with
  | setDhcp => cases stays
  | setIp => cases stays
  | setGateway tokens =>
      have same : (document.setGateway tokens).value = after := Except.ok.inj ok
      rw [setGateway_value] at same
      subst same
      refine ⟨⟨⟨rfl, rfl, rfl⟩, rfl, rfl, rfl, rfl⟩, fun _ other => (by cases other), fun _ _ => ?_⟩
      by_cases any : tokens.any isGatewayToken = true
      · exact Or.inr (if_pos any)
      · exact Or.inl (if_neg any)
  | setRoute token =>
      simp only [Edit.apply] at ok
      split at ok
      · cases ok
      next update edited set =>
        cases ok
        obtain ⟨routes, rfl⟩ := setRoute_routes set
        exact ⟨⟨⟨rfl, rfl, rfl⟩, rfl, rfl, rfl, rfl⟩, fun _ _ => ⟨rfl, rfl⟩,
          fun _ other => (by cases other)⟩

/-! ## Making an edit again -/

theorem setGateway_again (document : Document) (tokens : List String) :
    ((document.setGateway tokens).value.setGateway tokens).value =
      (document.setGateway tokens).value := by
  rw [setGateway_value, setGateway_value]
  simp only [← Option.or_assoc, Option.or_self]
  cases tokens.any isGatewayToken <;> rfl

theorem removeRoutes_again (document : Document) (family : Family) :
    ((document.removeRoutes family).2.removeRoutes family).2 = (document.removeRoutes family).2 := by
  simp [removeRoutes, withEntry]

/-- A route that is there already is not added. -/
theorem addRoute_of_mem {document : Document} {route : Route} {routes : List Route}
    (given : document.entry.routes = some routes) (there : route ∈ routes) :
    (document.addRoute route).2 = document := by
  have found : (document.entry.routes.getD []).contains route = true := by
    simpa [given] using there
  rw [addRoute, if_pos found, given]
  dsimp only [withEntry, Option.getD_some]
  rw [← given]

theorem mem_addRoute (document : Document) (route : Route) :
    ∃ routes, (document.addRoute route).2.entry.routes = some routes ∧ route ∈ routes := by
  unfold addRoute
  dsimp only
  split
  next there => exact ⟨_, rfl, by simpa using there⟩
  · exact ⟨_, rfl, by simp⟩

theorem setRoute_again {document after : Document} {token : String} {update : RouteUpdate}
    (ok : document.setRoute token = .ok (update, after)) :
    ∃ again, after.setRoute token = .ok (again, after) := by
  unfold setRoute at ok ⊢
  cases removes : removal? token with
  | some family =>
      rw [removes] at ok
      cases ok
      exact ⟨_, congrArg Except.ok (Prod.ext rfl (document.removeRoutes_again family))⟩
  | none =>
      rw [removes] at ok
      obtain ⟨route, parses, added⟩ := map_eq_ok ok
      obtain ⟨routes, given, there⟩ := document.mem_addRoute route
      rw [added] at given
      dsimp only
      rw [parses]
      exact ⟨_, congrArg Except.ok (Prod.ext rfl (addRoute_of_mem given there))⟩

/-- An edit that is made again on the document that it gave changes nothing. -/
theorem apply_again {document after : Document} {edit : Edit}
    (ok : (edit.apply document).value = .ok after) : (edit.apply after).value = .ok after := by
  cases edit with
  | setDhcp protocols =>
      have same : (document.setDhcp protocols).value = after := Except.ok.inj ok
      rw [setDhcp_value] at same
      subst same
      exact congrArg Except.ok (setDhcp_value _ _)
  | setGateway tokens =>
      have same : (document.setGateway tokens).value = after := Except.ok.inj ok
      subst same
      exact congrArg Except.ok (setGateway_again _ _)
  | setIp tokens options =>
      have same := mapError_eq_ok ok
      rw [setIp_value] at same
      obtain ⟨addresses, cidr, rfl⟩ := map_eq_ok same
      simp only [Edit.apply, Logged.value_bind, Logged.value_pure, setIp_value, cidr]
      rfl
  | setRoute token =>
      simp only [Edit.apply] at ok ⊢
      split at ok
      · cases ok
      next update edited set =>
        cases ok
        obtain ⟨again, same⟩ := setRoute_again set
        rw [same]

end Document

end NetplanEditor
