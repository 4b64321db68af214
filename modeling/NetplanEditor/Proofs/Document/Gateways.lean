import NetplanEditor.Proofs.Document.Edits
import NetplanEditor.Proofs.Text.Pieces

/-!
# Setting gateways

Of the tokens that do not mention a removal, the last of each family is the gateway of that family,
and any of them at all drops the routes (`setGateway_closed`). So only the tokens of each family
matter, in their order, and not how the two families are mixed.
-/

namespace NetplanEditor.Document

variable {document : Document} {family : Family} {token : String} {tokens others : List String}

/-- The token mentions a removal, and is skipped. -/
def MentionsRemoval (token : String) : Prop := "remove".toList <:+: token.toList

instance (token : String) : Decidable (MentionsRemoval token) :=
  inferInstanceAs (Decidable ("remove".toList <:+: token.toList))

/-- The token is a gateway of the family: of the IPv6 one with a colon, and of the IPv4 one
without. -/
def IsGatewayOf (family : Family) (token : String) : Prop :=
  ¬ MentionsRemoval token ∧ (':' ∈ token.toList ↔ family = .v6)

instance (family : Family) (token : String) : Decidable (IsGatewayOf family token) :=
  inferInstanceAs (Decidable (_ ∧ _))

/-- The gateways of the family among the tokens, in their order. -/
def gatewaysOf (family : Family) (tokens : List String) : List String :=
  tokens.filter fun token => decide (IsGatewayOf family token)

theorem isGatewayToken_iff : isGatewayToken token = true ↔ ¬ MentionsRemoval token := by
  rw [isGatewayToken, Bool.not_eq_true', ← Bool.not_eq_true, Text.hasText_iff]
  rfl

theorem gatewayFamily_eq : gatewayFamily token = family ↔ (':' ∈ token.toList ↔ family = .v6) := by
  have owns : Family.v6.owns token = true ↔ ':' ∈ token.toList := Text.hasChar_iff
  rw [← owns, gatewayFamily]
  cases Family.v6.owns token <;> cases family <;> simp

theorem isGatewayOf_iff :
    IsGatewayOf family token ↔ isGatewayToken token = true ∧ gatewayFamily token = family := by
  rw [isGatewayToken_iff, gatewayFamily_eq]
  rfl

theorem lastGateway_eq (family : Family) (tokens : List String) :
    lastGateway family tokens = (gatewaysOf family tokens).getLast? := by
  refine congrArg List.getLast? (List.filter_congr fun token _ => ?_)
  rw [Bool.eq_iff_iff, Bool.and_eq_true, beq_iff_eq, decide_eq_true_iff, isGatewayOf_iff]

/-- There is a gateway among the tokens exactly if there is one of some family. -/
theorem any_isGatewayToken :
    tokens.any isGatewayToken = true ↔ ∃ family, gatewaysOf family tokens ≠ [] := by
  rw [List.any_eq_true]
  constructor
  · rintro ⟨token, member, gateway⟩
    have own : IsGatewayOf (gatewayFamily token) token := isGatewayOf_iff.mpr ⟨gateway, rfl⟩
    exact ⟨gatewayFamily token, List.ne_nil_of_mem (List.mem_filter.mpr ⟨member, by simpa using own⟩)⟩
  · rintro ⟨family, some⟩
    obtain ⟨token, member⟩ := List.exists_mem_of_ne_nil _ some
    obtain ⟨there, own⟩ := List.mem_filter.mp member
    exact ⟨token, there, (isGatewayOf_iff.mp (of_decide_eq_true own)).1⟩

/-- The gateways of each family decide what is set. -/
theorem setGateway_eq (document : Document) (tokens : List String) :
    (document.setGateway tokens).value =
      { document with
        entry := { document.entry with
          gateway4 := (gatewaysOf .v4 tokens).getLast?.or document.entry.gateway4
          gateway6 := (gatewaysOf .v6 tokens).getLast?.or document.entry.gateway6
          routes :=
            if ∀ token ∈ tokens, MentionsRemoval token then document.entry.routes else none } } := by
  rw [setGateway_value, lastGateway_eq, lastGateway_eq]
  by_cases skipped : ∀ token ∈ tokens, MentionsRemoval token
  · have none : ¬ tokens.any isGatewayToken = true := by
      rw [List.any_eq_true]
      rintro ⟨token, member, gateway⟩
      exact isGatewayToken_iff.mp gateway (skipped token member)
    rw [if_pos skipped, if_neg none]
  · have some : tokens.any isGatewayToken = true := by
      obtain ⟨token, found⟩ := not_forall.mp skipped
      obtain ⟨member, gateway⟩ := Classical.not_imp.mp found
      exact List.any_eq_true.mpr ⟨token, member, isGatewayToken_iff.mpr gateway⟩
    rw [if_neg skipped, if_pos some]

/-- The last gateway of each family counts, any gateway at all drops the routes, and nothing else is
changed. So tokens that all mention a removal change nothing, how the families are mixed does not
matter, and neither does it to set the same gateways again. -/
theorem setGateway_closed (document : Document) (tokens : List String) :
    (document.setGateway tokens).value =
      { document with
        entry := { document.entry with
          gateway4 := (gatewaysOf .v4 tokens).getLast?.or document.entry.gateway4
          gateway6 := (gatewaysOf .v6 tokens).getLast?.or document.entry.gateway6
          routes :=
            if ∀ token ∈ tokens, MentionsRemoval token then document.entry.routes else none } } ∧
    ((∀ token ∈ tokens, MentionsRemoval token) → (document.setGateway tokens).value = document) ∧
    (∀ others, (∀ family, gatewaysOf family others = gatewaysOf family tokens) →
      (document.setGateway others).value = (document.setGateway tokens).value) ∧
    ((document.setGateway tokens).value.setGateway tokens).value =
      (document.setGateway tokens).value := by
  refine ⟨setGateway_eq document tokens, fun skipped => ?_, fun others same => ?_,
    setGateway_again document tokens⟩
  · have none (family : Family) : gatewaysOf family tokens = [] := by
      rw [gatewaysOf, List.filter_eq_nil_iff]
      exact fun token member own => (of_decide_eq_true own).1 (skipped token member)
    rw [setGateway_eq, none, none, if_pos skipped]
    rfl
  · have any : others.any isGatewayToken = tokens.any isGatewayToken := by
      rw [Bool.eq_iff_iff, any_isGatewayToken, any_isGatewayToken]
      simp only [same]
    rw [setGateway_value, setGateway_value, lastGateway_eq, lastGateway_eq, lastGateway_eq,
      lastGateway_eq, same, same, any]

/-- A list with both families, a removal within a longer text, and two gateways of one family sets
what its gateways set in another mixture; a list of removals sets nothing. -/
theorem setGateway_closed_mixed :
    let document : Document :=
      { interface := "eth0"
        entry := { gateway6 := some "fe80::9", routes := some [⟨"default", "10.0.0.1", none⟩] } }
    (∀ token ∈ ["remove6", "no remove: at all"], MentionsRemoval token) ∧
      (document.setGateway ["remove6", "no remove: at all"]).value = document ∧
      (∀ family, gatewaysOf family ["fe80::1", "remove", "10.0.0.1", "10.0.0.2"] =
        gatewaysOf family ["10.0.0.1", "fe80::1", "10.0.0.2"]) ∧
      (document.setGateway ["fe80::1", "remove", "10.0.0.1", "10.0.0.2"]).value =
        (document.setGateway ["10.0.0.1", "fe80::1", "10.0.0.2"]).value := by
  intro document
  have skipped : ∀ token ∈ ["remove6", "no remove: at all"], MentionsRemoval token := by
    decide +kernel
  have same (family : Family) : gatewaysOf family ["fe80::1", "remove", "10.0.0.1", "10.0.0.2"] =
      gatewaysOf family ["10.0.0.1", "fe80::1", "10.0.0.2"] := by
    cases family <;> decide +kernel
  obtain ⟨_, stays, _⟩ := setGateway_closed document ["remove6", "no remove: at all"]
  obtain ⟨_, _, unmixed, _⟩ := setGateway_closed document ["10.0.0.1", "fe80::1", "10.0.0.2"]
  exact ⟨skipped, stays skipped, same, unmixed _ same⟩

end NetplanEditor.Document
