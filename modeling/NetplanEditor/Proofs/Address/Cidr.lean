import NetplanEditor.Address
import NetplanEditor.Proofs.Result
import NetplanEditor.Proofs.Text.Numeral
import NetplanEditor.Proofs.Text.Pieces

/-!
# Addresses in CIDR form

Behind the first slash of a token its mask alone decides, although the family of the whole token is
asked for as well (`cidr_of_mask`). An address token is brought to CIDR form unless there is a dotted
mask behind its first slash with a piece that is no number (`cidr_eq_error`). What is in CIDR form
(`IsCidr`) has a slash and no dotted mask behind it, and stays as it is: the form is a normal form,
and keeps the host (`cidr_normal`).
-/

namespace NetplanEditor.Address

open Text (IsUnsigned32)

variable {address result host mask octet : String} {error : AddressError}

/-! ## Masks -/

/-- The token has a mask behind its first slash. -/
def HasMask (address mask : String) : Prop :=
  ∃ host : String, address.toList = host.toList ++ '/' :: mask.toList ∧ '/' ∉ host.toList

/-- The piece stands between two dots of the mask, or a dot and an end, and is the first there that
is not a number with blanks around it. -/
def FirstBad (mask octet : String) : Prop :=
  ∃ before after : List String, mask.toList.splitOn '.' = (before ++ octet :: after).map String.toList ∧
    (∀ earlier ∈ before, ∃ value, IsUnsigned32 (Text.trim earlier) value) ∧
    ∀ value, ¬ IsUnsigned32 (Text.trim octet) value

theorem hasMask_iff : HasMask address mask ↔ ∃ host, Text.firstCut '/' address = some (host, mask) := by
  simp only [HasMask, Text.firstCut_eq_some]

theorem owns_v4 {text : String} : Family.v4.owns text = true ↔ '.' ∈ text.toList :=
  Text.hasChar_iff

theorem octetOnes?_eq_none :
    octetOnes? octet = none ↔ ∀ value, ¬ IsUnsigned32 (Text.trim octet) value := by
  rw [octetOnes?, Option.map_eq_none_iff, Text.readUnsigned32_eq_none]

theorem exists_octetOnes :
    (∃ ones, octetOnes? octet = some ones) ↔ ∃ value, IsUnsigned32 (Text.trim octet) value := by
  simp only [octetOnes?, Option.map_eq_some_iff, Text.readUnsigned32_eq_some]
  constructor
  · rintro ⟨_, value, spells, _⟩
    exact ⟨value, spells⟩
  · rintro ⟨value, spells⟩
    exact ⟨_, value, spells, rfl⟩

/-- The one bits of a piece, or the fault of a mask that it stands in. -/
def onesOf (mask octet : String) : Except AddressError Nat :=
  (octetOnes? octet).elim (.error (.invalidNetmask mask octet)) .ok

theorem sumOnes_eq (mask : String) (octets : List String) :
    sumOnes mask octets = (octets.mapM (onesOf mask)).map (·.foldr (· + ·) 0) := by
  fun_induction sumOnes mask octets with
  | case1 => rfl
  | case2 octet octets bad =>
      have fails : onesOf mask octet = .error (.invalidNetmask mask octet) := by
        simp only [onesOf, bad, Option.elim_none]
      rw [List.mapM_cons, fails]
      rfl
  | case3 octet octets ones found ih =>
      have counts : onesOf mask octet = .ok ones := by
        simp only [onesOf, found, Option.elim_some]
      rw [ih, List.mapM_cons, counts]
      cases List.mapM (onesOf mask) octets <;> rfl

theorem exists_onesOf :
    (∃ ones, onesOf mask octet = .ok ones) ↔ ∃ value, IsUnsigned32 (Text.trim octet) value := by
  rw [← exists_octetOnes, onesOf]
  cases octetOnes? octet <;> simp

theorem prefixLength_eq_error :
    prefixLength mask = .error error ↔
      ∃ octet, FirstBad mask octet ∧ error = .invalidNetmask mask octet := by
  have bad (octet : String) : onesOf mask octet = .error error ↔
      (∀ value, ¬ IsUnsigned32 (Text.trim octet) value) ∧ error = .invalidNetmask mask octet := by
    rw [← octetOnes?_eq_none, onesOf]
    cases octetOnes? octet <;> simp [eq_comm]
  rw [prefixLength, sumOnes_eq, map_eq_error, map_eq_error, mapM_eq_error]
  constructor
  · rintro ⟨before, octet, after, cut, earlier, fails⟩
    obtain ⟨isBad, rfl⟩ := (bad octet).mp fails
    exact ⟨octet, ⟨before, after, Text.pieces_eq_iff.mp cut,
      fun piece member => exists_onesOf.mp (earlier piece member), isBad⟩, rfl⟩
  · rintro ⟨octet, ⟨before, after, cut, earlier, isBad⟩, rfl⟩
    exact ⟨before, octet, after, Text.pieces_eq_iff.mpr cut,
      fun piece member => exists_onesOf.mpr (earlier piece member), (bad octet).mpr ⟨isBad, rfl⟩⟩

/-! ## CIDR form -/

/-- A dot in the mask is a dot in the token, so a token with a dotted mask counts as IPv4 whatever its
host is. -/
theorem owns_of_mask (cut : Text.firstCut '/' address = some (host, mask))
    (dotted : '.' ∈ mask.toList) : Family.v4.owns address = true := by
  obtain ⟨whole, _⟩ := Text.firstCut_eq_some.mp cut
  rw [owns_v4, whole]
  exact List.mem_append_right _ (List.mem_cons_of_mem _ dotted)

/-- Behind a slash the mask alone decides, and the family of the whole token never does. -/
theorem cidr_of_mask (cut : Text.firstCut '/' address = some (host, mask)) :
    cidr address =
      if '.' ∈ mask.toList then
        (prefixLength mask).map fun length => host ++ "/" ++ Text.decimal length
      else .ok address := by
  have test : (Family.v4.owns address && Text.hasChar '.' mask) = true ↔ '.' ∈ mask.toList := by
    rw [Bool.and_eq_true, Text.hasChar_iff, and_iff_right_of_imp (owns_of_mask cut)]
  unfold cidr
  rw [cut]
  simp only [test]

/-- A token has no CIDR form exactly if a dotted mask behind its first slash has a piece that is no
number, and the first such piece is reported with the mask. -/
theorem cidr_eq_error :
    cidr address = .error error ↔
      ∃ mask octet, HasMask address mask ∧ '.' ∈ mask.toList ∧ FirstBad mask octet ∧
        error = .invalidNetmask mask octet := by
  simp only [hasMask_iff]
  cases cut : Text.firstCut '/' address with
  | none => simp [cidr, cut]
  | some parts =>
      obtain ⟨host, mask⟩ := parts
      rw [cidr_of_mask cut]
      split
      next dotted =>
        rw [map_eq_error, prefixLength_eq_error]
        constructor
        · rintro ⟨octet, bad, same⟩
          exact ⟨mask, octet, ⟨host, rfl⟩, dotted, bad, same⟩
        · rintro ⟨_, octet, ⟨_, same⟩, _, bad, isError⟩
          cases same
          exact ⟨octet, bad, isError⟩
      next plain =>
        simp only [reduceCtorEq, false_iff, not_exists]
        rintro _ _ ⟨⟨_, same⟩, dotted, _⟩
        cases same
        exact plain dotted

/-! ## The normal form -/

/-- The text is in CIDR form: there is a mask behind its first slash, and that is not dotted. -/
def IsCidr (address : String) : Prop := ∃ mask, HasMask address mask ∧ '.' ∉ mask.toList

/-- What stands before the first slash of a token: all of it where it has none. -/
def hostOf (address : String) : List Char := address.toList.takeWhile (· != '/')

theorem hostOf_of_free (free : '/' ∉ address.toList) : hostOf address = address.toList := by
  rw [hostOf, List.takeWhile_eq_self_iff]
  intro c member
  rw [bne_iff_ne]
  rintro rfl
  exact free member

theorem hostOf_of_mask (whole : address.toList = host.toList ++ '/' :: mask.toList)
    (free : '/' ∉ host.toList) : hostOf address = host.toList := by
  have kept : host.toList.takeWhile (· != '/') = host.toList := hostOf_of_free free
  rw [hostOf, whole, List.takeWhile_append, if_pos (congrArg List.length kept),
    List.takeWhile_cons_of_neg (by simp), List.append_nil]

/-- What is in CIDR form is kept. -/
theorem cidr_of_isCidr (isCidr : IsCidr address) : cidr address = .ok address := by
  obtain ⟨mask, hasMask, plain⟩ := isCidr
  obtain ⟨host, cut⟩ := hasMask_iff.mp hasMask
  rw [cidr_of_mask cut, if_neg plain]

theorem cidr_of_bare (bare : '/' ∉ address.toList) :
    cidr address = .ok (address ++ if '.' ∈ address.toList then "/32" else "/64") := by
  have length (family : Family) :
      "/" ++ Text.decimal family.hostLength = if family = .v4 then "/32" else "/64" := by
    cases family <;> decide
  unfold cidr
  rw [Text.firstCut_eq_none.mpr bare]
  dsimp only
  rw [String.append_assoc, length]
  by_cases dotted : '.' ∈ address.toList
  · rw [if_pos (owns_v4.mpr dotted), if_pos dotted]
    rfl
  · rw [if_neg (mt owns_v4.mp dotted), if_neg dotted]
    rfl

/-- Whatever the length is, the text with it is in CIDR form and has the host before it. -/
theorem isCidr_of_length (free : '/' ∉ host.toList) (length : Nat) :
    IsCidr (host ++ "/" ++ Text.decimal length) ∧
      hostOf (host ++ "/" ++ Text.decimal length) = host.toList := by
  have whole : (host ++ "/" ++ Text.decimal length).toList =
      host.toList ++ '/' :: (Text.decimal length).toList := by simp
  refine ⟨⟨Text.decimal length, ⟨host, whole, free⟩, fun dot => ?_⟩, hostOf_of_mask whole free⟩
  exact absurd (Text.isDigit_of_mem_decimal dot) (by decide)

/-- Every result is in CIDR form, with the host that the token had. -/
theorem isCidr_of_cidr (ok : cidr address = .ok result) :
    IsCidr result ∧ hostOf result = hostOf address := by
  cases cut : Text.firstCut '/' address with
  | none =>
      have free : '/' ∉ address.toList := Text.firstCut_eq_none.mp cut
      simp only [cidr, cut, Except.ok.injEq] at ok
      subst ok
      rw [hostOf_of_free free]
      exact isCidr_of_length free _
  | some parts =>
      obtain ⟨host, mask⟩ := parts
      obtain ⟨whole, free⟩ := Text.firstCut_eq_some.mp cut
      rw [cidr_of_mask cut] at ok
      split at ok
      · obtain ⟨length, _, rfl⟩ := map_eq_ok ok
        rw [hostOf_of_mask whole free]
        exact isCidr_of_length free length
      next plain =>
        cases ok
        exact ⟨⟨mask, ⟨host, whole, free⟩, plain⟩, rfl⟩

/-- What is in CIDR form is kept, and it has a slash. -/
theorem cidr_again (ok : cidr address = .ok result) :
    cidr result = .ok result ∧ '/' ∈ result.toList := by
  obtain ⟨isCidr, _⟩ := isCidr_of_cidr ok
  refine ⟨cidr_of_isCidr isCidr, ?_⟩
  obtain ⟨mask, ⟨host, whole, _⟩, _⟩ := isCidr
  simp [whole]

/-- The CIDR form is a normal form. A result has the host of its token and no dotted mask, and it is
its own CIDR form; a token in CIDR form stays as it is, a bare one gets the length of its family, and
only a dotted mask with a piece that is no number has no CIDR form. -/
theorem cidr_normal (address : String) :
    (∀ result, cidr address = .ok result →
      IsCidr result ∧ hostOf result = hostOf address ∧ cidr result = .ok result) ∧
    (IsCidr address → cidr address = .ok address) ∧
    ('/' ∉ address.toList →
      cidr address = .ok (address ++ if '.' ∈ address.toList then "/32" else "/64")) ∧
    ∀ error, cidr address = .error error →
      ∃ mask octet, HasMask address mask ∧ '.' ∈ mask.toList ∧ FirstBad mask octet ∧
        error = .invalidNetmask mask octet := by
  refine ⟨fun result ok => ?_, cidr_of_isCidr, cidr_of_bare, fun error => cidr_eq_error.mp⟩
  obtain ⟨isCidr, sameHost⟩ := isCidr_of_cidr ok
  exact ⟨isCidr, sameHost, cidr_of_isCidr isCidr⟩

/-- An IPv4 address within an IPv6 one has a mask that is not contiguous, with blanks in it; behind a
second slash there is no length, but a piece of the mask that is no number. -/
theorem cidr_normal_mapped :
    cidr "::ffff:10.0.0.1/255. 0.+255" = .ok "::ffff:10.0.0.1/16" ∧
      hostOf "::ffff:10.0.0.1/16" = "::ffff:10.0.0.1".toList ∧
      cidr "::ffff:10.0.0.1/16" = .ok "::ffff:10.0.0.1/16" ∧
      cidr "fe80::1/64/9" = .ok "fe80::1/64/9" ∧
      cidr "::ffff:10.0.0.1" = .ok "::ffff:10.0.0.1/32" ∧
      cidr "10.0.0.1/255.0/8" = .error (.invalidNetmask "255.0/8" "0/8") ∧
      FirstBad "255.0/8" "0/8" := by
  have form : cidr "::ffff:10.0.0.1/255. 0.+255" = .ok "::ffff:10.0.0.1/16" := by decide +kernel
  have noForm : cidr "10.0.0.1/255.0/8" = .error (.invalidNetmask "255.0/8" "0/8") := by
    decide +kernel
  have isCidr : IsCidr "fe80::1/64/9" := ⟨"64/9", ⟨"fe80::1", by decide, by decide⟩, by decide⟩
  obtain ⟨settles, _⟩ := cidr_normal "::ffff:10.0.0.1/255. 0.+255"
  obtain ⟨_, keeps, _⟩ := cidr_normal "fe80::1/64/9"
  obtain ⟨_, _, bare, _⟩ := cidr_normal "::ffff:10.0.0.1"
  obtain ⟨_, _, _, fails⟩ := cidr_normal "10.0.0.1/255.0/8"
  obtain ⟨mask, octet, _, _, bad, same⟩ := fails _ noForm
  cases same
  exact ⟨form, (settles _ form).2.1.trans (by decide), (settles _ form).2.2, keeps isCidr,
    bare (by decide), noForm, bad⟩

end NetplanEditor.Address
