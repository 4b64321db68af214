import Mathlib.Algebra.Ring.Nat
import NetplanEditor.Proofs.Address.Cidr

/-!
# Netmasks

A netmask is a row of numbers with dots between them, each in decimal and with blanks around it
(`IsDotted`). Its length is the sum of the population counts of these numbers, as far as 32 bits hold
it. Four octets spell one word (`Quad.word`), and then the length is the population count of that
word; a contiguous mask (`IsContiguous`) is told by it. Every other text is reported with its first
piece that is no number (`prefixLength_counts`).
-/

namespace NetplanEditor.Address

open Text (IsUnsigned32 maxUnsigned32)

variable {netmask piece : String} {value : UInt32} {values : List UInt32}

/-! ## Population counts -/

/-- The population count of a number. -/
def ones (value : UInt32) : Nat := value.toBitVec.cpop.toNat

/-- The lowest bit of a number stands behind the bits of its half. -/
theorem ofNat_succ_eq_concat (width n : Nat) :
    BitVec.ofNat (width + 1) n = (BitVec.ofNat width (n / 2)).concat (n.testBit 0) := by
  apply BitVec.eq_of_getLsbD_eq
  intro i bound
  rw [BitVec.getLsbD_concat, BitVec.getLsbD_ofNat]
  cases i with
  | zero => simp
  | succ i => simp [BitVec.getLsbD_ofNat, Nat.testBit_succ]

theorem countOnes_eq (width n : Nat) : countOnes width n = (BitVec.ofNat width n).cpop.toNat := by
  induction width generalizing n with
  | zero => rfl
  | succ width ih =>
      rw [countOnes, ih, ofNat_succ_eq_concat, BitVec.toNat_cpop_concat, Nat.toNat_testBit]
      simp

/-! ## Dotted numbers -/

/-- The piece is a decimal numeral for the number, with blanks around it. -/
def Writes (piece : String) (value : UInt32) : Prop :=
  ∃ (before after : List Char) (numeral : String),
    piece.toList = before ++ numeral.toList ++ after ∧ (∀ c ∈ before ++ after, isBlank c = true) ∧
    IsUnsigned32 numeral value

/-- The netmask writes the numbers, of which there is at least one, with a dot between each two. -/
def IsDotted (netmask : String) (values : List UInt32) : Prop :=
  values ≠ [] ∧ ∃ pieces : List String, List.Forall₂ Writes pieces values ∧
    netmask = ".".intercalate pieces

theorem writes_iff : Writes piece value ↔ IsUnsigned32 (Text.trim piece) value := by
  constructor
  · rintro ⟨before, after, numeral, whole, blank, spells⟩
    have trims : Text.Trims piece.toList numeral.toList :=
      ⟨before, after, whole, blank, fun c first => spells.not_blank (List.mem_of_head? first),
        fun c last => spells.not_blank (List.mem_of_getLast? last)⟩
    rwa [Text.trim_eq_iff.mpr trims]
  · intro spells
    obtain ⟨before, after, whole, blank, _⟩ := Text.trim_eq_iff.mp (Eq.refl (Text.trim piece))
    exact ⟨before, after, Text.trim piece, whole, blank, spells⟩

theorem writes_iff_reads :
    Writes piece value ↔ Text.readUnsigned32 (Text.trim piece) = some value := by
  rw [writes_iff, Text.readUnsigned32_eq_some]

/-- There is no dot in a piece, neither in its numeral nor among its blanks. -/
theorem Writes.no_dot (writes : Writes piece value) : '.' ∉ piece.toList := by
  obtain ⟨before, after, numeral, whole, blank, spells⟩ := writes
  intro dot
  rw [whole, List.append_assoc, List.mem_append, List.mem_append] at dot
  have noBlank : '.' ∉ before ++ after := fun member => absurd (blank _ member) (by decide)
  rcases dot with early | inside | late
  · exact noBlank (List.mem_append_left _ early)
  · rcases spells.plus_or_digit inside with same | digit
    · cases same
    · exact absurd digit (by decide)
  · exact noBlank (List.mem_append_right _ late)

/-- The numbers of a netmask are those that its pieces between dots are. -/
theorem isDotted_iff :
    IsDotted netmask values ↔ List.Forall₂ Writes (Text.pieces (· == '.') netmask) values := by
  constructor
  · rintro ⟨filled, pieces, written, rfl⟩
    have hasPiece : pieces.map String.toList ≠ [] := by
      intro noPiece
      rw [List.map_eq_nil_iff.mp noPiece] at written
      exact filled (List.forall₂_nil_left_iff.mp written)
    have noDot : ∀ text ∈ pieces.map String.toList, '.' ∉ text := by
      intro text member
      obtain ⟨piece, isPiece, rfl⟩ := List.mem_map.mp member
      obtain ⟨value, _, writes⟩ := related_of_mem written isPiece
      exact writes.no_dot
    have cut : Text.pieces (· == '.') (".".intercalate pieces) = pieces := by
      rw [Text.pieces_eq_iff, String.toList_intercalate]
      exact List.splitOn_intercalate '.' noDot hasPiece
    rwa [cut]
  · intro written
    have cut : netmask.toList.splitOn '.' = (Text.pieces (· == '.') netmask).map String.toList :=
      Text.pieces_eq_iff.mp rfl
    refine ⟨?_, _, written, ?_⟩
    · rintro rfl
      rw [List.forall₂_nil_right_iff.mp written] at cut
      exact List.splitOn_ne_nil _ _ cut
    · rw [← String.toList_inj, String.toList_intercalate, ← cut]
      exact (List.intercalate_splitOn '.').symm

/-- Which numbers a netmask writes is decided by reading its pieces. -/
theorem isDotted_iff_reads :
    IsDotted netmask values ↔
      (Text.pieces (· == '.') netmask).map (fun piece => Text.readUnsigned32 (Text.trim piece)) =
        values.map some := by
  have reads : Writes = fun piece value => Text.readUnsigned32 (Text.trim piece) = some value := by
    funext piece value
    exact propext writes_iff_reads
  rw [isDotted_iff, reads, ← List.forall₂_eq_eq_eq, List.forall₂_map_left_iff,
    List.forall₂_map_right_iff]

instance : Decidable (IsDotted netmask values) := decidable_of_iff _ isDotted_iff_reads.symm

theorem onesOf_of_writes (writes : Writes piece value) : onesOf netmask piece = .ok (ones value) := by
  rw [onesOf, octetOnes?, writes_iff_reads.mp writes, Option.map_some, Option.elim_some,
    countOnes_eq, ones]
  simp

/-- The length of a netmask is the sum of the population counts, as it wraps in 32 bits. -/
theorem prefixLength_of_isDotted (dotted : IsDotted netmask values) :
    prefixLength netmask = .ok ((values.map ones).sum % (maxUnsigned32 + 1)) := by
  have counted : (Text.pieces (· == '.') netmask).mapM (onesOf netmask) = .ok (values.map ones) := by
    rw [mapM_eq_ok, List.forall₂_map_right_iff]
    exact (isDotted_iff.mp dotted).imp fun _ _ => onesOf_of_writes
  rw [prefixLength, sumOnes_eq, counted]
  rfl

/-- Pieces that are all counted are all numbers. -/
theorem exists_writes {pieces : List String} {counts : List Nat}
    (counted : List.Forall₂ (fun piece count => onesOf netmask piece = .ok count) pieces counts) :
    ∃ values, List.Forall₂ Writes pieces values := by
  induction counted with
  | nil => exact ⟨[], .nil⟩
  | cons first _ ih =>
      obtain ⟨values, others⟩ := ih
      obtain ⟨value, spells⟩ := exists_onesOf.mp ⟨_, first⟩
      exact ⟨value :: values, .cons (writes_iff.mpr spells) others⟩

/-- A netmask that has a length is made of numbers. -/
theorem isDotted_of_prefixLength {length : Nat} (ok : prefixLength netmask = .ok length) :
    ∃ values, IsDotted netmask values := by
  obtain ⟨_, sum, _⟩ := map_eq_ok ok
  rw [sumOnes_eq] at sum
  obtain ⟨counts, collected, _⟩ := map_eq_ok sum
  obtain ⟨values, written⟩ := exists_writes (mapM_eq_ok.mp collected)
  exact ⟨values, isDotted_iff.mpr written⟩

/-! ## Four octets -/

theorem append_inj {m n : Nat} {high high' : BitVec m} {low low' : BitVec n}
    (same : high ++ low = high' ++ low') : high = high' ∧ low = low' := by
  have first := congrArg (BitVec.extractLsb' n m) same
  have last := congrArg (BitVec.extractLsb' 0 n) same
  rw [BitVec.extractLsb'_append_eq_left, BitVec.extractLsb'_append_eq_left] at first
  rw [BitVec.extractLsb'_append_eq_right, BitVec.extractLsb'_append_eq_right] at last
  exact ⟨first, last⟩

/-- Four octets, the first of them with the highest bits. -/
structure Quad where
  first : UInt8
  second : UInt8
  third : UInt8
  fourth : UInt8

namespace Quad

variable {quad other : Quad}

def numbers (quad : Quad) : List UInt32 :=
  [quad.first.toUInt32, quad.second.toUInt32, quad.third.toUInt32, quad.fourth.toUInt32]

/-- The word that the octets spell. -/
def word (quad : Quad) : BitVec 32 :=
  quad.first.toBitVec ++ quad.second.toBitVec ++ quad.third.toBitVec ++ quad.fourth.toBitVec

/-- The ones of a word are those of its octets. -/
theorem sum_ones (quad : Quad) : (quad.numbers.map ones).sum = quad.word.cpop.toNat := by
  have octet (value : UInt8) : ones value.toUInt32 = value.toBitVec.cpop.toNat := by
    rw [ones, UInt8.toBitVec_toUInt32, BitVec.toNat_cpop_setWidth_eq_of_le (by decide)]
  simp only [numbers, word, List.map_cons, List.map_nil, List.sum_cons, List.sum_nil, octet,
    BitVec.toNat_cpop_append]
  omega

theorem word_inj (same : quad.word = other.word) : quad = other := by
  obtain ⟨same, fourth⟩ := append_inj (m := 24) (n := 8) same
  obtain ⟨same, third⟩ := append_inj (m := 16) (n := 8) same
  obtain ⟨first, second⟩ := append_inj (m := 8) (n := 8) same
  cases quad
  cases other
  rw [mk.injEq]
  exact ⟨UInt8.eq_of_toBitVec_eq first, UInt8.eq_of_toBitVec_eq second,
    UInt8.eq_of_toBitVec_eq third, UInt8.eq_of_toBitVec_eq fourth⟩

theorem prefixLength_eq (dotted : IsDotted netmask quad.numbers) :
    prefixLength netmask = .ok quad.word.cpop.toNat := by
  have few : quad.word.cpop.toNat < maxUnsigned32 + 1 :=
    Nat.lt_of_le_of_lt (BitVec.toNat_cpop_le quad.word) (by decide)
  rw [prefixLength_of_isDotted dotted, sum_ones, Nat.mod_eq_of_lt few]

end Quad

/-! ## Contiguous masks -/

/-- The word starts with this many ones, and all behind them are zeros. -/
def IsContiguous {width : Nat} (word : BitVec width) (length : Nat) : Prop :=
  length ≤ width ∧ ∀ i < width, word.getMsbD i = decide (i < length)

variable {width length : Nat} {word other : BitVec width}

instance : Decidable (IsContiguous word length) :=
  inferInstanceAs (Decidable (length ≤ width ∧ ∀ i < width, word.getMsbD i = decide (i < length)))

theorem IsContiguous.unique (contiguous : IsContiguous word length)
    (likewise : IsContiguous other length) : word = other := by
  apply BitVec.eq_of_getMsbD_eq
  intro i bound
  rw [contiguous.2 i bound, likewise.2 i bound]

theorem isContiguous_allOnes (length rest : Nat) :
    IsContiguous (BitVec.allOnes length ++ BitVec.ofNat rest 0) length := by
  refine ⟨Nat.le_add_right length rest, fun i _ => ?_⟩
  rw [BitVec.getMsbD_append]
  by_cases inside : i < length <;> simp [inside]

/-- The ones of a contiguous mask are counted by its length. -/
theorem IsContiguous.cpop_eq (contiguous : IsContiguous word length) :
    word.cpop.toNat = length := by
  obtain ⟨rest, rfl⟩ := Nat.exists_eq_add_of_le contiguous.1
  rw [contiguous.unique (isContiguous_allOnes length rest), BitVec.toNat_cpop_append,
    BitVec.cpop_allOnes, BitVec.cpop_zero, BitVec.toNat_ofNat, BitVec.toNat_ofNat, Nat.zero_mod,
    Nat.add_zero, Nat.mod_eq_of_lt Nat.lt_two_pow_self]

/-- The netmask writes four octets, and these are a contiguous mask of this length. -/
def IsMask (netmask : String) (quad : Quad) (length : Nat) : Prop :=
  IsDotted netmask quad.numbers ∧ IsContiguous quad.word length

theorem IsMask.prefixLength_eq {quad : Quad} (isMask : IsMask netmask quad length) :
    prefixLength netmask = .ok length := by
  rw [Quad.prefixLength_eq isMask.1, isMask.2.cpop_eq]

/-! ## Lengths -/

/-- The length of a netmask counts the ones of its numbers, as long as 32 bits hold the count. With
four octets it is the population count of their word. A contiguous mask has its own length, and no
other contiguous mask has it too. Every text that is no netmask is reported, with its first piece
that is no number. -/
theorem prefixLength_counts (netmask : String) :
    (∀ values, IsDotted netmask values → (values.map ones).sum ≤ maxUnsigned32 →
      prefixLength netmask = .ok (values.map ones).sum) ∧
    (∀ quad : Quad, IsDotted netmask quad.numbers →
      prefixLength netmask = .ok quad.word.cpop.toNat ∧ quad.word.cpop.toNat ≤ 32) ∧
    (∀ quad length, IsMask netmask quad length → prefixLength netmask = .ok length) ∧
    (∀ quad length other quad' length', IsMask netmask quad length → IsMask other quad' length' →
      prefixLength netmask = prefixLength other → quad = quad') ∧
    ((∀ values, ¬ IsDotted netmask values) →
      ∃ octet, FirstBad netmask octet ∧
        prefixLength netmask = .error (.invalidNetmask netmask octet)) := by
  refine ⟨fun values dotted fits => ?counts, fun quad dotted => ?word,
    fun _ _ isMask => isMask.prefixLength_eq,
    fun quad length other quad' length' isMask isOther same => ?tells, fun noNetmask => ?reports⟩
  case counts => rw [prefixLength_of_isDotted dotted, Nat.mod_eq_of_lt (Nat.lt_succ_of_le fits)]
  case word => exact ⟨Quad.prefixLength_eq dotted, BitVec.toNat_cpop_le quad.word⟩
  case tells =>
    rw [isMask.prefixLength_eq, isOther.prefixLength_eq] at same
    cases same
    exact Quad.word_inj (isMask.2.unique isOther.2)
  case reports =>
    cases result : prefixLength netmask with
    | ok length =>
        obtain ⟨values, dotted⟩ := isDotted_of_prefixLength result
        exact (noNetmask values dotted).elim
    | error error =>
        obtain ⟨octet, bad, rfl⟩ := prefixLength_eq_error.mp result
        exact ⟨octet, bad, rfl⟩

/-- Numbers beyond an octet are counted as well, and so are ones with gaps between them. One mask is
written in two ways; blanks around a piece that is no number are reported with it. -/
theorem prefixLength_counts_spelled :
    IsDotted "4294967295. +007 " [4294967295, 7] ∧ prefixLength "4294967295. +007 " = .ok 35 ∧
      IsDotted "255.0.255.0" (Quad.mk 255 0 255 0).numbers ∧ prefixLength "255.0.255.0" = .ok 16 ∧
      IsMask "255.255.240.0" ⟨255, 255, 240, 0⟩ 20 ∧
      prefixLength "255.255.240.0" = .ok 20 ∧
      IsMask " 0255.+255.240.00" ⟨255, 255, 240, 0⟩ 20 ∧
      (∀ quad length, IsMask " 0255.+255.240.00" quad length → quad = ⟨255, 255, 240, 0⟩) ∧
      (∀ values, ¬ IsDotted "255. x.y" values) ∧ FirstBad "255. x.y" " x" ∧
      prefixLength "255. x.y" = .error (.invalidNetmask "255. x.y" " x") := by
  have row : IsDotted "4294967295. +007 " [4294967295, 7] := by decide +kernel
  have gaps : IsDotted "255.0.255.0" (Quad.mk 255 0 255 0).numbers := by decide +kernel
  have mask : IsMask "255.255.240.0" ⟨255, 255, 240, 0⟩ 20 := ⟨by decide +kernel, by decide +kernel⟩
  have again : IsMask " 0255.+255.240.00" ⟨255, 255, 240, 0⟩ 20 :=
    ⟨by decide +kernel, by decide +kernel⟩
  have same : prefixLength "255.255.240.0" = prefixLength " 0255.+255.240.00" := by decide +kernel
  have fails : prefixLength "255. x.y" = .error (.invalidNetmask "255. x.y" " x") := by
    decide +kernel
  have noNetmask (values : List UInt32) : ¬ IsDotted "255. x.y" values := by
    intro dotted
    rw [prefixLength_of_isDotted dotted] at fails
    cases fails
  obtain ⟨counts, _⟩ := prefixLength_counts "4294967295. +007 "
  obtain ⟨_, word, _⟩ := prefixLength_counts "255.0.255.0"
  obtain ⟨_, _, masks, tells, _⟩ := prefixLength_counts "255.255.240.0"
  obtain ⟨_, _, _, _, reports⟩ := prefixLength_counts "255. x.y"
  obtain ⟨octet, bad, reported⟩ := reports noNetmask
  cases fails.symm.trans reported
  exact ⟨row, (counts _ row (by decide +kernel)).trans (by decide +kernel), gaps,
    (word _ gaps).1.trans (by decide +kernel), mask, masks _ _ mask, again,
    fun quad length isMask => (tells _ _ _ _ _ mask isMask same).symm, noNetmask, bad, reported⟩

end NetplanEditor.Address
