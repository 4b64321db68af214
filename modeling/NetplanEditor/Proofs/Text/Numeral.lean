import Mathlib.Data.List.Basic
import NetplanEditor.Text.Blank
import NetplanEditor.Text.Numeral

/-!
# Unsigned numerals

An unsigned numeral of 32 bits is a run of decimal digits, perhaps behind one plus sign, whose value
fits (`IsUnsigned32`). `readUnsigned32` reads exactly these, and `decimal` writes one of them.
-/

namespace NetplanEditor.Text

/-- The text is a numeral for the value: perhaps a plus sign, and then decimal digits. -/
def IsUnsigned32 (text : String) (value : UInt32) : Prop :=
  ∃ digits : List Char, (text.toList = digits ∨ text.toList = '+' :: digits) ∧ digits ≠ [] ∧
    (∀ c ∈ digits, c.isDigit = true) ∧ Nat.ofDigitChars 10 digits 0 = value.toNat

variable {digits : List Char} {text : String} {value : UInt32}

theorem isDigit_iff (c : Char) : c.isDigit = true ↔ '0' ≤ c ∧ c ≤ '9' := by
  rw [Char.isDigit, Bool.and_eq_true, decide_eq_true_iff, decide_eq_true_iff]
  rfl

theorem isBlank_digit {c : Char} (digit : c.isDigit = true) : isBlank c = false := by
  obtain ⟨lower, upper⟩ := (isDigit_iff c).mp digit
  have above : 48 ≤ c.toNat := lower
  have below : c.toNat ≤ 57 := upper
  simp only [isBlank, Bool.or_eq_false_iff, Bool.and_eq_false_iff, beq_eq_false_iff_ne,
    decide_eq_false_iff_not]
  omega

/-- The digits of base ten are the decimal digits. -/
theorem radixDigit?_ten (c : Char) :
    radixDigit? 10 c = if c.isDigit then some (c.toNat - '0'.toNat) else none := by
  unfold radixDigit?
  by_cases digit : '0' ≤ c ∧ c ≤ '9'
  · have small : c.toNat - '0'.toNat < 10 := by
      have upper : c.toNat ≤ '9'.toNat := digit.2
      have ends : '9'.toNat = '0'.toNat + 9 := rfl
      omega
    rw [if_pos digit, if_pos ((isDigit_iff c).mpr digit), Option.filter_some,
      if_pos (decide_eq_true small)]
  · rw [if_neg digit, if_neg (mt (isDigit_iff c).mp digit)]
    split
    · exact Option.filter_eq_none_iff.mpr fun _ same => by cases same; simp
    · split
      · exact Option.filter_eq_none_iff.mpr fun _ same => by cases same; simp
      · rfl

theorem readDigitsFrom_ten (start : Nat) (digits : List Char) :
    readDigitsFrom 10 start digits =
      if digits.all Char.isDigit then some (Nat.ofDigitChars 10 digits start) else none := by
  induction digits generalizing start with
  | nil => rfl
  | cons c digits ih =>
      rw [readDigitsFrom, radixDigit?_ten, List.all_cons, Nat.ofDigitChars_cons, Nat.mul_comm]
      cases c.isDigit with
      | true => exact ih _
      | false => rfl

theorem readDigits_ten (digits : List Char) :
    readDigits 10 digits =
      if digits ≠ [] ∧ digits.all Char.isDigit then some (Nat.ofDigitChars 10 digits 0) else none := by
  cases digits with
  | nil => rfl
  | cons c digits => simp [readDigits, readDigitsFrom_ten]

/-- A plus sign is no digit, so what stands behind one can be told from the rest. -/
theorem afterPlus_eq_iff {cs : List Char} (allDigits : ∀ c ∈ digits, c.isDigit = true) :
    afterPlus cs = digits ↔ cs = digits ∨ cs = '+' :: digits := by
  unfold afterPlus
  split
  next rest =>
    constructor
    · rintro rfl
      exact Or.inr rfl
    · rintro (rfl | same)
      · exact absurd (allDigits '+' List.mem_cons_self) (by decide)
      · exact List.tail_eq_of_cons_eq same
  next noPlus =>
    constructor
    · exact Or.inl
    · rintro (same | rfl)
      · exact same
      · exact (noPlus digits rfl).elim

theorem readUnsigned32_eq_some : readUnsigned32 text = some value ↔ IsUnsigned32 text value := by
  have fits : value.toNat ≤ maxUnsigned32 := Nat.le_of_lt_succ value.toNat_lt
  have reads : readUnsigned32 text = some value ↔
      readDigits 10 (afterPlus text.toList) = some value.toNat := by
    unfold readUnsigned32
    constructor
    · intro found
      obtain ⟨n, inRange, rfl⟩ := Option.map_eq_some_iff.mp found
      obtain ⟨isNumeral, small⟩ := Option.filter_eq_some_iff.mp inRange
      rw [isNumeral, UInt32.toNat_ofNat_of_lt' (Nat.lt_succ_of_le (of_decide_eq_true small))]
    · intro isNumeral
      rw [isNumeral, Option.filter_some, if_pos (decide_eq_true fits), Option.map_some,
        UInt32.ofNat_toNat]
  rw [reads, readDigits_ten]
  constructor
  · intro isNumeral
    split at isNumeral
    next isRun =>
      obtain ⟨filled, allDigits⟩ := isRun
      rw [List.all_eq_true] at allDigits
      exact ⟨_, (afterPlus_eq_iff allDigits).mp rfl, filled, allDigits, Option.some.inj isNumeral⟩
    next => cases isNumeral
  · rintro ⟨digits, written, filled, allDigits, sum⟩
    rw [(afterPlus_eq_iff allDigits).mpr written, if_pos ⟨filled, List.all_eq_true.mpr allDigits⟩,
      sum]

theorem readUnsigned32_eq_none : readUnsigned32 text = none ↔ ∀ value, ¬ IsUnsigned32 text value := by
  simp only [← readUnsigned32_eq_some, Option.eq_none_iff_forall_ne_some, ne_eq]

/-- A numeral holds digits and perhaps a plus sign, and nothing else. -/
theorem IsUnsigned32.plus_or_digit (numeral : IsUnsigned32 text value) {c : Char}
    (member : c ∈ text.toList) : c = '+' ∨ c.isDigit = true := by
  obtain ⟨digits, same | same, _, allDigits, _⟩ := numeral
  · rw [same] at member
    exact Or.inr (allDigits c member)
  · rw [same, List.mem_cons] at member
    exact member.imp_right (allDigits c)

theorem IsUnsigned32.not_blank (numeral : IsUnsigned32 text value) {c : Char}
    (member : c ∈ text.toList) : isBlank c = false := by
  rcases numeral.plus_or_digit member with rfl | digit
  · rfl
  · exact isBlank_digit digit

theorem isDigit_of_mem_decimal {n : Nat} {c : Char} (member : c ∈ (decimal n).toList) :
    c.isDigit = true := by
  rw [decimal, String.toList_ofList] at member
  exact Nat.isDigit_of_mem_toDigits (by decide) (by decide) member

theorem decimal_ne_empty (n : Nat) : decimal n ≠ "" := by
  intro empty
  have noDigits : (decimal n).toList = [] := by rw [empty]; rfl
  rw [decimal, String.toList_ofList] at noDigits
  exact Nat.toDigits_ne_nil noDigits

/-- What is written for a value is a numeral for it. -/
theorem isUnsigned32_decimal (value : UInt32) : IsUnsigned32 (decimal value.toNat) value := by
  refine ⟨Nat.toDigits 10 value.toNat, Or.inl String.toList_ofList, Nat.toDigits_ne_nil,
    fun c member => ?_, Nat.ofDigitChars_ten_toDigits⟩
  exact Nat.isDigit_of_mem_toDigits (by decide) (by decide) member

end NetplanEditor.Text
