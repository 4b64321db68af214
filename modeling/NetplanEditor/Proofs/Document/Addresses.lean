import NetplanEditor.Proofs.Address.Cidr
import NetplanEditor.Proofs.Document.Edits

/-!
# Setting addresses

The address tokens are all brought to CIDR form before anything is changed. If one of them has none,
the first of them is reported and the document is left as it was; if all have one, the document is
made anew from them and the options (`setIp_closed`). Addresses that were set once can be set again.
-/

namespace NetplanEditor.Document

open Address (HasMask FirstBad cidr_eq_error cidr_again)

variable {document after : Document} {tokens options : List String} {token mask octet : String}

/-- The token is an address with a dotted mask in which the piece is the first bad one. -/
structure Faulty (token mask octet : String) : Prop where
  isAddress : token ≠ "remove" ∧ token ≠ "remove6"
  hasMask : HasMask token mask
  dotted : '.' ∈ mask.toList
  firstBad : FirstBad mask octet

/-- The document that is left when addresses have been set. -/
def addressed (document : Document) (tokens options : List String) : Document :=
  match (document.setIp tokens options).value with
  | .ok after => after
  | .error _ => document

/-- What is made of addresses that have a CIDR form: nothing but the interface is kept. -/
def static (interface : String) (addresses options : List String) : Document :=
  { interface
    entry := { addresses, dhcp4 := some (decide ("dhcp" ∈ options)),
               dhcp6 := some (decide ("dhcp6" ∈ options)) } }

/-! ## Tokens -/

theorem isAddressToken_iff : isAddressToken token = true ↔ token ≠ "remove" ∧ token ≠ "remove6" := by
  rw [isAddressToken, Bool.and_eq_true, bne_iff_ne, bne_iff_ne]
  rfl

/-- A removal token has no slash, and so is never the CIDR form of an address. -/
theorem isAddressToken_of_slash (slash : '/' ∈ token.toList) : isAddressToken token = true := by
  rw [isAddressToken_iff]
  constructor <;> (rintro rfl; exact absurd slash (by decide))

theorem faulty_iff :
    Faulty token mask octet ↔
      isAddressToken token = true ∧ Address.cidr token = .error (.invalidNetmask mask octet) := by
  rw [isAddressToken_iff, cidr_eq_error]
  constructor
  · rintro ⟨isAddress, hasMask, dotted, bad⟩
    exact ⟨isAddress, mask, octet, hasMask, dotted, bad, rfl⟩
  · rintro ⟨isAddress, _, _, hasMask, dotted, bad, same⟩
    cases same
    exact ⟨isAddress, hasMask, dotted, bad⟩

theorem not_faulty_iff (isAddress : isAddressToken token = true) :
    (∀ mask octet, ¬ Faulty token mask octet) ↔ ∃ address, Address.cidr token = .ok address := by
  simp only [faulty_iff, isAddress, true_and]
  constructor
  · intro never
    cases form : Address.cidr token with
    | ok address => exact ⟨address, rfl⟩
    | error fault =>
        obtain ⟨mask, octet, _, _, _, rfl⟩ := cidr_eq_error.mp form
        exact (never mask octet form).elim
  · rintro ⟨address, ok⟩ mask octet fails
    cases ok.symm.trans fails

/-! ## All tokens -/

/-- The first token that has no CIDR form is to blame. -/
theorem mapM_cidr_eq_error {error : AddressError} :
    (tokens.filter isAddressToken).mapM Address.cidr = .error error ↔
      ∃ before token after mask octet, tokens = before ++ token :: after ∧
        (∀ earlier ∈ before, ∀ mask octet, ¬ Faulty earlier mask octet) ∧
        Faulty token mask octet ∧ error = .invalidNetmask mask octet := by
  rw [mapM_eq_error]
  constructor
  · rintro ⟨before, token, after, split, succeed, fails⟩
    obtain ⟨mask, octet, _, _, _, rfl⟩ := cidr_eq_error.mp fails
    obtain ⟨front, back, rfl, rfl, isBack⟩ := List.filter_eq_append_iff.mp split
    obtain ⟨skipped, rest, rfl, noAddress, isAddress, _⟩ := List.filter_eq_cons_iff.mp isBack
    refine ⟨front ++ skipped, token, rest, mask, octet, (List.append_assoc ..).symm, ?_,
      faulty_iff.mpr ⟨isAddress, fails⟩, rfl⟩
    intro earlier member mask octet faulty
    obtain ⟨isAddress, noForm⟩ := faulty_iff.mp faulty
    rcases List.mem_append.mp member with inFront | inSkipped
    · obtain ⟨address, ok⟩ := succeed earlier (List.mem_filter.mpr ⟨inFront, isAddress⟩)
      cases ok.symm.trans noForm
    · exact noAddress earlier inSkipped isAddress
  · rintro ⟨before, token, after, mask, octet, rfl, clean, faulty, rfl⟩
    obtain ⟨isAddress, noForm⟩ := faulty_iff.mp faulty
    refine ⟨before.filter isAddressToken, token, after.filter isAddressToken, ?_, ?_, noForm⟩
    · rw [List.filter_append, List.filter_cons_of_pos isAddress]
    · intro earlier member
      obtain ⟨inBefore, isAddress⟩ := List.mem_filter.mp member
      exact (not_faulty_iff isAddress).mp (clean earlier inBefore)

/-- The addresses start over from the skeleton, and nothing else does. -/
theorem setIp_eq_static (document : Document) (tokens options : List String) :
    (document.setIp tokens options).value =
      ((tokens.filter isAddressToken).mapM Address.cidr).map fun addresses =>
        static document.interface addresses options := by
  rw [setIp_value]
  congr 1
  funext addresses
  by_cases dhcp : "dhcp" ∈ options <;> by_cases dhcp6 : "dhcp6" ∈ options <;>
    simp [static, Entry.switchOn, Family.dhcpOption, dhcp, dhcp6]

/-- What is reported for a bad token is all that is done. -/
theorem setIp_of_error {error : AddressError}
    (fails : (document.setIp tokens options).value = .error error) :
    document.setIp tokens options = pure (.error error) := by
  unfold setIp at fails ⊢
  generalize cidrAll tokens = forms at fails ⊢
  cases forms with
  | error fault =>
      cases fails
      rfl
  | ok addresses => cases fails

/-- Addresses that were set are in CIDR form, and none of them is a removal token. -/
theorem mapM_cidr_again {addresses : List String}
    (ok : (tokens.filter isAddressToken).mapM Address.cidr = .ok addresses) :
    (addresses.filter isAddressToken).mapM Address.cidr = .ok addresses := by
  have settled : ∀ address ∈ addresses,
      Address.cidr address = .ok address ∧ '/' ∈ address.toList := by
    intro address member
    obtain ⟨token, _, form⟩ := item_of_mem ok member
    exact cidr_again form
  rw [List.filter_eq_self.mpr fun address member => isAddressToken_of_slash (settled address member).2,
    mapM_eq_ok, List.forall₂_same]
  exact fun address member => (settled address member).1

/-- Setting addresses fails exactly if one of the tokens has a dotted mask with a piece that is no
number. The first such token is reported, and the document is left as it was. Otherwise the document
is made of its interface, the CIDR forms of the tokens in their order, and one flag for each family;
and setting the addresses again with options that ask for the same flags gives the same document. -/
theorem setIp_closed (document : Document) (tokens options : List String) :
    ((∃ error, (document.setIp tokens options).value = .error error) ↔
      ∃ token ∈ tokens, ∃ mask octet, Faulty token mask octet) ∧
    (∀ error, (document.setIp tokens options).value = .error error →
      (∃ before token later mask octet, tokens = before ++ token :: later ∧
        (∀ earlier ∈ before, ∀ mask octet, ¬ Faulty earlier mask octet) ∧
        Faulty token mask octet ∧ error = .invalidNetmask mask octet) ∧
      document.setIp tokens options = pure (.error error) ∧
      document.addressed tokens options = document) ∧
    ∀ after, (document.setIp tokens options).value = .ok after →
      (∃ addresses, List.Forall₂ (fun token address => Address.cidr token = .ok address)
          (tokens.filter fun token => token ≠ "remove" ∧ token ≠ "remove6") addresses ∧
        after = static document.interface addresses options) ∧
      document.addressed tokens options = after ∧
      ∀ others, (∀ family : Family,
          family.dhcpOption ∈ others ↔ after.entry.dhcp family = some true) →
        (after.setIp after.entry.addresses others).value = .ok after := by
  refine ⟨?_, fun error fails => ⟨?_, setIp_of_error fails, ?_⟩, fun after ok => ⟨?_, ?_, ?_⟩⟩
  · simp only [setIp_eq_static, map_eq_error, mapM_cidr_eq_error]
    constructor
    · rintro ⟨_, before, token, later, mask, octet, rfl, _, faulty, _⟩
      exact ⟨token, List.mem_append_right _ List.mem_cons_self, mask, octet, faulty⟩
    · rintro ⟨token, member, mask, octet, faulty⟩
      obtain ⟨isAddress, noForm⟩ := faulty_iff.mp faulty
      cases all : (tokens.filter isAddressToken).mapM Address.cidr with
      | error error => exact ⟨error, mapM_cidr_eq_error.mp all⟩
      | ok addresses =>
          obtain ⟨address, _, form⟩ := result_of_mem all (List.mem_filter.mpr ⟨member, isAddress⟩)
          cases form.symm.trans noForm
  · rw [setIp_eq_static, map_eq_error] at fails
    exact mapM_cidr_eq_error.mp fails
  · rw [addressed, fails]
  · rw [setIp_eq_static] at ok
    obtain ⟨addresses, forms, rfl⟩ := map_eq_ok ok
    have kept : (tokens.filter fun token => token ≠ "remove" ∧ token ≠ "remove6") =
        tokens.filter isAddressToken :=
      List.filter_congr fun token _ => by
        rw [Bool.eq_iff_iff, decide_eq_true_iff, isAddressToken_iff]
    exact ⟨addresses, kept ▸ mapM_eq_ok.mp forms, rfl⟩
  · rw [addressed, ok]
  · intro others asked
    rw [setIp_eq_static] at ok
    obtain ⟨addresses, forms, rfl⟩ := map_eq_ok ok
    have flag (family : Family) : family.dhcpOption ∈ others ↔ family.dhcpOption ∈ options := by
      rw [asked family]
      cases family <;> exact Option.some_inj.trans decide_eq_true_iff
    rw [setIp_eq_static, static, mapM_cidr_again forms]
    have sameV4 : ("dhcp" ∈ others) = ("dhcp" ∈ options) := propext (flag .v4)
    have sameV6 : ("dhcp6" ∈ others) = ("dhcp6" ∈ options) := propext (flag .v6)
    simp [Except.map, static, sameV4, sameV6]

/-- An address with a dotted mask that is given twice, one without a length, and removals. -/
def repeated : List String := ["remove", "10.0.0.1/255.255.0.255", "fe80::1", "10.0.0.1/255.255.0.255"]

/-- What is set for them is set again. A mask with a letter in it is reported for the token that has
it, whatever comes before and behind, and the document with a route stays. -/
theorem setIp_closed_repeated :
    let document : Document :=
      { interface := "eth0", entry := { routes := some [⟨"default", "10.0.0.1", none⟩] } }
    let after := static "eth0" ["10.0.0.1/24", "fe80::1/64", "10.0.0.1/24"] ["dhcp6"]
    (document.setIp repeated ["dhcp6", "x"]).value = .ok after ∧
      (after.setIp after.entry.addresses ["dhcp6", "dhcp6"]).value = .ok after ∧
      (document.setIp (repeated ++ ["10.0.0.2/255. x.0.y", "1/."]) []).value =
        .error (.invalidNetmask "255. x.0.y" " x") ∧
      document.addressed (repeated ++ ["10.0.0.2/255. x.0.y", "1/."]) [] = document := by
  intro document after
  have forms : (repeated.filter isAddressToken).mapM Address.cidr =
      .ok ["10.0.0.1/24", "fe80::1/64", "10.0.0.1/24"] := by decide +kernel
  have noForm : ((repeated ++ ["10.0.0.2/255. x.0.y", "1/."]).filter isAddressToken).mapM
      Address.cidr = .error (.invalidNetmask "255. x.0.y" " x") := by decide +kernel
  have set : (document.setIp repeated ["dhcp6", "x"]).value = .ok after := by
    rw [setIp_eq_static, forms]
    rfl
  have fails : (document.setIp (repeated ++ ["10.0.0.2/255. x.0.y", "1/."]) []).value =
      .error (.invalidNetmask "255. x.0.y" " x") := by
    rw [setIp_eq_static, noForm]
    rfl
  obtain ⟨_, _, succeeds⟩ := setIp_closed document repeated ["dhcp6", "x"]
  obtain ⟨_, stays, _⟩ := setIp_closed document (repeated ++ ["10.0.0.2/255. x.0.y", "1/."]) []
  refine ⟨set, (succeeds after set).2.2 _ ?_, fails, (stays _ fails).2.2⟩
  intro family
  cases family <;> decide

end NetplanEditor.Document
