import Mathlib.Data.List.Forall2
import NetplanEditor.Proofs.Text.Numeral
import NetplanEditor.Proofs.Text.Pieces
import NetplanEditor.Route

/-!
# The grammar of route tokens

A token is trimmed and cut into segments (`Segmented`), and its segments alone decide what it says:
one route, or the first fault in a fixed order (`Verdict`). Which of the two separators stands where
does not matter, and a route that is written as a token is found in it again (`parse_grammar`).
-/

namespace NetplanEditor

/-- The same fault, found in another token. -/
def RouteError.about (token : String) : RouteError → RouteError
  | missingDestination _ => missingDestination token
  | missingGateway _ => missingGateway token
  | invalidMetric _ metric => invalidMetric token metric
  | trailingSegments _ => trailingSegments token

namespace Route

open Text (Trims IsUnsigned32)

variable {token : String} {segments : List String}

/-! ## What segments say -/

/-- The segments of a token: what is left of it without the blanks around it, cut at each
separator. -/
def Segmented (token : String) (segments : List String) : Prop :=
  ∃ core, Trims token.toList core ∧ core.splitOnP isSeparator = segments.map String.toList

/-- The metric that the segments behind the gateway give: none if there is nothing in them. -/
inductive MetricIs : List String → Option UInt32 → Prop
  | missing : MetricIs [] none
  | empty : MetricIs [""] none
  | numeral {text : String} {value : UInt32} (spells : IsUnsigned32 text value) :
    MetricIs [text] (some value)

/-- What segments say: too few or too many of them are no route, and of the others the first that is
wrong counts. Every fault carries the token as it was typed. -/
inductive Verdict (token : String) : List String → Except RouteError Route → Prop
  | single (only : String) : Verdict token [only] (.error (.missingGateway token))
  | many {segments : List String} (four : 4 ≤ segments.length) :
    Verdict token segments (.error (.trailingSegments token))
  | noDestination (gateway : String) {behind : List String} (few : behind.length ≤ 1) :
    Verdict token ("" :: gateway :: behind) (.error (.missingDestination token))
  | noGateway {destination : String} {behind : List String} (few : behind.length ≤ 1)
    (hasDestination : destination ≠ "") :
    Verdict token (destination :: "" :: behind) (.error (.missingGateway token))
  | badMetric {destination gateway metric : String} (hasDestination : destination ≠ "")
    (hasGateway : gateway ≠ "") (filled : metric ≠ "") (bad : ∀ value, ¬ IsUnsigned32 metric value) :
    Verdict token [destination, gateway, metric] (.error (.invalidMetric token metric))
  | route {destination gateway : String} {behind : List String} {metric : Option UInt32}
    (hasDestination : destination ≠ "") (hasGateway : gateway ≠ "") (isMetric : MetricIs behind metric) :
    Verdict token (destination :: gateway :: behind) (.ok ⟨destination, gateway, metric⟩)

/-! ## Reading segments -/

theorem readMetric_of_numeral {text : String} {value : UInt32} (spells : IsUnsigned32 text value) :
    readMetric token text = .ok (some value) := by
  have filled : text ≠ "" := by
    rintro rfl
    obtain ⟨digits, rfl | same, filled, _⟩ := spells
    · exact filled rfl
    · cases same
  unfold readMetric
  rw [if_neg (mt String.isEmpty_iff.mp filled), Text.readUnsigned32_eq_some.mpr spells]

theorem readMetric_of_bad {text : String} (filled : text ≠ "")
    (bad : ∀ value, ¬ IsUnsigned32 text value) :
    readMetric token text = .error (.invalidMetric token text) := by
  unfold readMetric
  rw [if_neg (mt String.isEmpty_iff.mp filled), Text.readUnsigned32_eq_none.mpr bad]

theorem ofPieces_filled {destination gateway : String} (hasDestination : destination ≠ "")
    (hasGateway : gateway ≠ "") (metric : Option String) :
    ofPieces token destination gateway metric =
      (metric.elim (.ok none) (readMetric token)).map fun value => ⟨destination, gateway, value⟩ := by
  unfold ofPieces
  rw [if_neg (mt String.isEmpty_iff.mp hasDestination), if_neg (mt String.isEmpty_iff.mp hasGateway)]
  cases metric <;> rfl

/-- Two segments, or three, are a destination, a gateway and perhaps a metric. -/
theorem parse_of_few {destination gateway : String} {behind : List String}
    (cut : Text.pieces isSeparator (Text.trim token) = destination :: gateway :: behind)
    (few : behind.length ≤ 1) :
    parse token = ofPieces token destination gateway behind.head? := by
  unfold parse
  rw [cut]
  cases behind with
  | nil => rfl
  | cons metric rest =>
      cases rest with
      | nil => rfl
      | cons => simp at few

theorem MetricIs.length_le {behind : List String} {metric : Option UInt32}
    (isMetric : MetricIs behind metric) : behind.length ≤ 1 := by
  cases isMetric <;> simp

/-- What is found in a token is what its segments say. -/
theorem Verdict.parse_eq {result : Except RouteError Route}
    (cut : Text.pieces isSeparator (Text.trim token) = segments)
    (verdict : Verdict token segments result) : parse token = result := by
  cases verdict with
  | single only =>
      unfold parse
      rw [cut]
  | many four =>
      unfold parse
      rw [cut]
      clear cut
      match segments, four with
      | _ :: _ :: _ :: _ :: _, _ => rfl
  | noDestination gateway few =>
      rw [parse_of_few cut few]
      rfl
  | noGateway few hasDestination =>
      rw [parse_of_few cut few]
      unfold ofPieces
      rw [if_neg (mt String.isEmpty_iff.mp hasDestination)]
      rfl
  | badMetric hasDestination hasGateway filled bad =>
      rw [parse_of_few cut (by simp), ofPieces_filled hasDestination hasGateway]
      simp [readMetric_of_bad filled bad, Except.map]
  | route hasDestination hasGateway isMetric =>
      rw [parse_of_few cut isMetric.length_le, ofPieces_filled hasDestination hasGateway]
      cases isMetric with
      | missing => rfl
      | empty => rfl
      | numeral spells => simp [readMetric_of_numeral spells, Except.map]

/-- Whatever the segments are, they say something. -/
theorem exists_verdict (token : String) (some : segments ≠ []) :
    ∃ result, Verdict token segments result := by
  match segments, some with
  | [only], _ => exact ⟨_, .single only⟩
  | destination :: gateway :: behind, _ =>
      by_cases few : behind.length ≤ 1
      swap
      · exact ⟨_, .many (by simp only [List.length_cons]; omega)⟩
      by_cases hasDestination : destination = ""
      · subst hasDestination
        exact ⟨_, .noDestination gateway few⟩
      by_cases hasGateway : gateway = ""
      · subst hasGateway
        exact ⟨_, .noGateway few hasDestination⟩
      match behind, few with
      | [], _ => exact ⟨_, .route hasDestination hasGateway .missing⟩
      | [metric], _ =>
          by_cases filled : metric = ""
          · subst filled
            exact ⟨_, .route hasDestination hasGateway .empty⟩
          by_cases spells : ∃ value, IsUnsigned32 metric value
          · obtain ⟨value, spells⟩ := spells
            exact ⟨_, .route hasDestination hasGateway (.numeral spells)⟩
          · exact ⟨_, .badMetric hasDestination hasGateway filled (not_exists.mp spells)⟩

theorem segmented_iff :
    Segmented token segments ↔ Text.pieces isSeparator (Text.trim token) = segments := by
  rw [Text.pieces_eq_iff, Text.trim, String.toList_ofList]
  constructor
  · rintro ⟨core, trims, cut⟩
    rwa [Text.trims_iff.mp trims]
  · exact fun cut => ⟨_, Text.trims_trimChars _, cut⟩

theorem pieces_ne_nil (isSeparator : Char → Bool) (s : String) : Text.pieces isSeparator s ≠ [] := by
  rw [Text.pieces, Text.cutAt_eq_splitOnP, ne_eq, List.map_eq_nil_iff]
  exact List.splitOnP_ne_nil isSeparator s.toList

theorem parse_eq_iff (token : String) (result : Except RouteError Route) :
    parse token = result ↔ Verdict token (Text.pieces isSeparator (Text.trim token)) result := by
  constructor
  · rintro rfl
    obtain ⟨result, verdict⟩ := exists_verdict token (pieces_ne_nil isSeparator (Text.trim token))
    rwa [verdict.parse_eq rfl]
  · exact fun verdict => verdict.parse_eq rfl

/-- Segments say the same of every token that has them: the same route, or the same fault in it. -/
theorem Verdict.about {result : Except RouteError Route} (verdict : Verdict token segments result)
    (other : String) : Verdict other segments (result.mapError (RouteError.about other)) := by
  cases verdict with
  | single only => exact .single only
  | many four => exact .many four
  | noDestination gateway few => exact .noDestination gateway few
  | noGateway few hasDestination => exact .noGateway few hasDestination
  | badMetric hasDestination hasGateway filled bad =>
      exact .badMetric hasDestination hasGateway filled bad
  | route hasDestination hasGateway isMetric => exact .route hasDestination hasGateway isMetric

/-- The blanks around a token are not read. -/
theorem parse_of_trims {core : String} (trims : Trims token.toList core.toList) :
    parse token = (parse core).mapError (RouteError.about token) := by
  have alike : Text.trim token = Text.trim core := by
    rw [Text.trim, Text.trim, Text.trims_iff.mp trims, Text.trims_iff.mp trims.again]
  have verdict := (parse_eq_iff core _).mp rfl
  rw [← alike] at verdict
  exact (parse_eq_iff token _).mpr (verdict.about token)

/-! ## Routes as tokens -/

/-- A route written as a token. -/
def write (route : Route) : String :=
  route.destination ++ "=" ++ route.gateway ++
    route.metric.elim "" fun metric => "m" ++ Text.decimal metric.toNat

/-- The text can be a segment at either end of a token: something is in it, but no separator, and no
blanks are around it. -/
structure IsPart (text : String) : Prop where
  filled : text ≠ ""
  free : ∀ c ∈ text.toList, c ≠ 'm' ∧ c ≠ '='
  trimmed : Trims text.toList text.toList

/-- It can be checked, character by character, that a text is a part. -/
theorem isPart_iff {text : String} :
    IsPart text ↔ text ≠ "" ∧ text.toList.all (fun c => c != 'm' && c != '=') = true ∧
      Text.trimChars text.toList = text.toList := by
  simp only [List.all_eq_true, Bool.and_eq_true, bne_iff_ne, ← Text.trims_iff]
  exact ⟨fun ⟨filled, free, trimmed⟩ => ⟨filled, free, trimmed⟩,
    fun ⟨filled, free, trimmed⟩ => ⟨filled, free, trimmed⟩⟩

instance (text : String) : Decidable (IsPart text) := decidable_of_iff _ isPart_iff.symm

theorem IsPart.not_separator {text : String} (part : IsPart text) :
    ∀ c ∈ text.toList, isSeparator c = false := by
  intro c member
  simp [isSeparator, part.free c member]

theorem isSeparator_digit {c : Char} (digit : c.isDigit = true) : isSeparator c = false := by
  rw [isSeparator, Bool.or_eq_false_iff, beq_eq_false_iff_ne, beq_eq_false_iff_ne]
  constructor <;> (rintro rfl; exact absurd digit (by decide))

/-- What is written neither starts nor ends with a blank. -/
theorem trims_write {route : Route} (destination : IsPart route.destination)
    (gateway : IsPart route.gateway) : Trims route.write.toList route.write.toList := by
  have hasDestination : route.destination.toList ≠ [] := by
    simpa using destination.filled
  have hasGateway : route.gateway.toList ≠ [] := by
    simpa using gateway.filled
  obtain ⟨_, _, _, _, first, _⟩ := destination.trimmed
  obtain ⟨_, _, _, _, _, last⟩ := gateway.trimmed
  refine ⟨[], [], by simp, by simp, fun c start => first c ?_, fun c finish => ?_⟩
  · rw [write, String.toList_append, String.toList_append, String.toList_append,
      List.append_assoc, List.append_assoc, List.head?_append_of_ne_nil _ hasDestination] at start
    exact start
  · cases metric : route.metric with
    | none =>
        rw [write, metric, Option.elim_none, String.append_empty, String.toList_append,
          List.getLast?_append_of_ne_nil _ hasGateway] at finish
        exact last c finish
    | some value =>
        have hasDigits : (Text.decimal value.toNat).toList ≠ [] := by
          simpa using Text.decimal_ne_empty value.toNat
        rw [write, metric, Option.elim_some, ← String.append_assoc, String.toList_append,
          List.getLast?_append_of_ne_nil _ hasDigits] at finish
        exact Text.isBlank_digit (Text.isDigit_of_mem_decimal (List.mem_of_getLast? finish))

/-- The segments that a route is written with. -/
theorem segmented_write {route : Route} (destination : IsPart route.destination)
    (gateway : IsPart route.gateway) :
    Segmented route.write (route.destination :: route.gateway ::
      route.metric.toList.map fun metric => Text.decimal metric.toNat) := by
  refine ⟨_, trims_write destination gateway, ?_⟩
  cases metric : route.metric with
  | none =>
      have written : route.write.toList = route.destination.toList ++ '=' :: route.gateway.toList := by
        simp [write, metric]
      rw [written, List.splitOnP_append_cons_of_forall_mem destination.not_separator '=' rfl,
        List.splitOnP_eq_singleton gateway.not_separator]
      rfl
  | some value =>
      have written : route.write.toList = route.destination.toList ++ '=' ::
          (route.gateway.toList ++ 'm' :: (Text.decimal value.toNat).toList) := by
        simp [write, metric]
      have digits : ∀ c ∈ (Text.decimal value.toNat).toList, isSeparator c = false :=
        fun c member => isSeparator_digit (Text.isDigit_of_mem_decimal member)
      rw [written, List.splitOnP_append_cons_of_forall_mem destination.not_separator '=' rfl,
        List.splitOnP_append_cons_of_forall_mem gateway.not_separator 'm' rfl,
        List.splitOnP_eq_singleton digits]
      rfl

theorem parse_write {route : Route} (destination : IsPart route.destination)
    (gateway : IsPart route.gateway) : parse route.write = .ok route := by
  have cut := segmented_iff.mp (segmented_write destination gateway)
  have isMetric : MetricIs (route.metric.toList.map fun metric => Text.decimal metric.toNat)
      route.metric := by
    cases route.metric with
    | none => exact .missing
    | some value => exact .numeral (Text.isUnsigned32_decimal value)
  exact Verdict.parse_eq cut (.route destination.filled gateway.filled isMetric)

/-! ## One separator for the other -/

/-- The second token is the first with some of its equals signs turned into the other separator. -/
def Swapped (token other : String) : Prop :=
  List.Forall₂ (fun c d => d = c ∨ c = '=' ∧ d = 'm') token.toList other.toList

section Swapped

variable {cs ds : List Char}
  (swapped : List.Forall₂ (fun c d => d = c ∨ c = '=' ∧ d = 'm') cs ds)

include swapped

theorem swapped_dropWhile : List.Forall₂ (fun c d => d = c ∨ c = '=' ∧ d = 'm')
    (cs.dropWhile isBlank) (ds.dropWhile isBlank) := by
  induction swapped with
  | nil => exact .nil
  | @cons c d cs ds head tail ih =>
      have alike : isBlank d = isBlank c := by
        rcases head with rfl | ⟨rfl, rfl⟩ <;> rfl
      rw [List.dropWhile_cons, List.dropWhile_cons, alike]
      split
      · exact ih
      · exact .cons head tail

theorem swapped_trimChars : List.Forall₂ (fun c d => d = c ∨ c = '=' ∧ d = 'm')
    (Text.trimChars cs) (Text.trimChars ds) :=
  List.rel_reverse (swapped_dropWhile (List.rel_reverse (swapped_dropWhile swapped)))

theorem swapped_cutAt : Text.cutAt isSeparator cs = Text.cutAt isSeparator ds := by
  induction swapped with
  | nil => rfl
  | cons head _ ih =>
      rcases head with rfl | ⟨rfl, rfl⟩
      · rw [Text.cutAt, Text.cutAt, ih]
      · exact congrArg ([] :: ·) ih

end Swapped

theorem Swapped.pieces_eq {other : String} (swapped : Swapped token other) :
    Text.pieces isSeparator (Text.trim other) = Text.pieces isSeparator (Text.trim token) := by
  rw [Text.pieces, Text.pieces, Text.trim, Text.trim, String.toList_ofList, String.toList_ofList,
    swapped_cutAt (swapped_trimChars swapped)]

/-- Route tokens are read by their grammar. A token has one list of segments, and what they say is
what is found in it; a route that is written is found again, and one separator is as good as the
other. -/
theorem parse_grammar (token : String) :
    (∃ segments, (∀ others, Segmented token others ↔ others = segments) ∧
      ∀ result, parse token = result ↔ Verdict token segments result) ∧
    (∀ route : Route, IsPart route.destination → IsPart route.gateway →
      parse route.write = .ok route) ∧
    ∀ other, Swapped token other → ∀ route, parse other = .ok route ↔ parse token = .ok route := by
  refine ⟨⟨Text.pieces isSeparator (Text.trim token), fun others => ?_, parse_eq_iff token⟩,
    fun _ => parse_write, fun other swapped route => ?_⟩
  · rw [segmented_iff, eq_comm]
  · rw [parse_eq_iff, parse_eq_iff, swapped.pieces_eq]
    exact ⟨fun verdict => verdict.about token, fun verdict => verdict.about other⟩

/-- A gateway behind the letter, and a metric with a sign and a leading zero between blanks. -/
theorem parse_grammar_padded :
    let route : Route := ⟨"10.0.0.0/8", "fe80::1", some 7⟩
    IsPart route.destination ∧ IsPart route.gateway ∧ parse "10.0.0.0/8=fe80::1m7" = .ok route ∧
      Swapped " 10.0.0.0/8=fe80::1=+07\t" " 10.0.0.0/8mfe80::1=+07\t" ∧
      parse " 10.0.0.0/8mfe80::1=+07\t" = .ok route := by
  intro route
  have destination : IsPart route.destination := by decide
  have gateway : IsPart route.gateway := by decide
  have swapped : Swapped " 10.0.0.0/8=fe80::1=+07\t" " 10.0.0.0/8mfe80::1=+07\t" := by
    unfold Swapped
    decide
  obtain ⟨_, writes, swaps⟩ := parse_grammar " 10.0.0.0/8=fe80::1=+07\t"
  exact ⟨destination, gateway, writes route destination gateway, swapped,
    (swaps _ swapped route).mpr (by decide +kernel)⟩

end Route

end NetplanEditor
