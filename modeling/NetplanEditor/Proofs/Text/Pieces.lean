import Mathlib.Data.List.DropRight
import NetplanEditor.Text.Blank
import NetplanEditor.Text.Pieces

/-!
# What trimming and cutting give

Trimming leaves the middle of a text, between the blanks at its two ends (`Trims`). Cutting gives the
runs between separators, as `List.splitOnP` does, and a cut at the first mark is the one with no mark
before it. The words of a text are its runs between blanks, apart from the empty ones. A text stands in
another if it is an infix of it.
-/

namespace NetplanEditor.Text

variable {cs core : List Char} {mark : Char}

/-! ## Trimming -/

/-- The second text is the first without the blanks around it: it neither starts nor ends with a
blank, and all that is left out is blank. -/
def Trims (cs core : List Char) : Prop :=
  ∃ before after, cs = before ++ core ++ after ∧ (∀ c ∈ before ++ after, isBlank c = true) ∧
    (∀ c ∈ core.head?, isBlank c = false) ∧ ∀ c ∈ core.getLast?, isBlank c = false

theorem trimEndChars_eq (cs : List Char) : trimEndChars cs = cs.rdropWhile isBlank := rfl

theorem dropWhile_isBlank_of_head (filled : ∀ c ∈ core.head?, isBlank c = false) :
    core.dropWhile isBlank = core := by
  cases core with
  | nil => rfl
  | cons c core => exact List.dropWhile_cons_of_neg (by simp [filled c rfl])

theorem trimEndChars_of_last (filled : ∀ c ∈ core.getLast?, isBlank c = false) :
    trimEndChars core = core := by
  rw [trimEndChars_eq, List.rdropWhile_eq_self_iff]
  intro some
  rw [filled _ (List.getLast?_eq_some_getLast some)]
  exact Bool.false_ne_true

theorem trims_trimChars (cs : List Char) : Trims cs (trimChars cs) := by
  let started := cs.dropWhile isBlank
  refine ⟨cs.takeWhile isBlank, started.rtakeWhile isBlank, ?_, ?_, ?_, ?_⟩
  · have whole : trimChars cs ++ started.rtakeWhile isBlank = started :=
      List.rdropWhile_append_rtakeWhile
    rw [List.append_assoc, whole, List.takeWhile_append_dropWhile]
  · intro c member
    rcases List.mem_append.mp member with leading | trailing
    · exact List.mem_takeWhile_imp leading
    · exact List.mem_takeWhile_imp (List.mem_reverse.mp trailing)
  · intro c first
    have isPrefix : trimChars cs <+: started := List.rdropWhile_prefix isBlank _
    have started : started.head? = some c := by
      obtain ⟨rest, same⟩ := isPrefix
      rw [← same, List.head?_append, Option.mem_def.mp first]
      rfl
    have filled := List.head?_dropWhile_not isBlank cs
    rwa [started] at filled
  · intro c last
    have some : trimChars cs ≠ [] := by
      intro none
      rw [none] at last
      cases last
    have filled : ¬ isBlank ((trimChars cs).getLast some) = true :=
      List.rdropWhile_last_not isBlank started some
    rw [List.getLast?_eq_some_getLast some] at last
    cases last
    exact Bool.eq_false_iff.mpr filled

/-- Trimming is the one way to leave out the blanks around a text. -/
theorem trims_iff : Trims cs core ↔ trimChars cs = core := by
  constructor
  · rintro ⟨before, after, rfl, blank, first, last⟩
    have blankBefore : ∀ c ∈ before, isBlank c = true :=
      fun c member => blank c (List.mem_append_left _ member)
    have blankAfter : ∀ c ∈ after, isBlank c = true :=
      fun c member => blank c (List.mem_append_right _ member)
    have started : trimStartChars (before ++ core ++ after) = (core ++ after).dropWhile isBlank := by
      rw [trimStartChars, List.append_assoc, List.dropWhile_append_of_pos blankBefore]
    rw [trimChars, started]
    cases core with
    | nil =>
        have nothing : after.dropWhile isBlank = [] := List.dropWhile_eq_nil_iff.mpr blankAfter
        rw [List.nil_append, nothing]
        rfl
    | cons c core =>
        have kept : (c :: core ++ after).dropWhile isBlank = c :: core ++ after :=
          dropWhile_isBlank_of_head fun d same => first d same
        have blankEnd : ∀ c ∈ after.reverse, isBlank c = true :=
          fun c member => blankAfter c (List.mem_reverse.mp member)
        rw [kept, trimEndChars, List.reverse_append, List.dropWhile_append_of_pos blankEnd]
        exact trimEndChars_of_last last
  · rintro rfl
    exact trims_trimChars cs

theorem trim_eq_iff {s core : String} : trim s = core ↔ Trims s.toList core.toList := by
  rw [trims_iff, trim, ← String.toList_inj, String.toList_ofList]

/-- There is nothing to trim from what has been trimmed. -/
theorem Trims.again (trims : Trims cs core) : Trims core core := by
  obtain ⟨_, _, _, _, first, last⟩ := trims
  exact ⟨[], [], by simp, by simp, first, last⟩

/-! ## Cutting -/

/-- Cutting at separators is what the library does with lists. -/
theorem cutAt_eq_splitOnP (isSeparator : Char → Bool) (cs : List Char) :
    cutAt isSeparator cs = cs.splitOnP isSeparator := by
  induction cs with
  | nil => rfl
  | cons c cs ih =>
      rw [cutAt, List.splitOnP_cons_eq_if_modifyHead, ih]
      split
      · rfl
      · obtain ⟨piece, rest, split⟩ := List.exists_cons_of_ne_nil (List.splitOnP_ne_nil isSeparator cs)
        rw [split]
        rfl

theorem pieces_eq_iff {isSeparator : Char → Bool} {s : String} {segments : List String} :
    pieces isSeparator s = segments ↔ s.toList.splitOnP isSeparator = segments.map String.toList := by
  rw [pieces, cutAt_eq_splitOnP]
  constructor
  · rintro rfl
    simp
  · intro same
    simp [same]

theorem hasChar_iff {s : String} : hasChar mark s = true ↔ mark ∈ s.toList := by
  simp [hasChar]

theorem firstCutChars_eq_some {before after : List Char} :
    firstCutChars mark cs = some (before, after) ↔ cs = before ++ mark :: after ∧ mark ∉ before := by
  induction cs generalizing before with
  | nil => simp [firstCutChars]
  | cons c cs ih =>
      unfold firstCutChars
      split
      next own =>
        subst own
        constructor
        · intro same
          cases same
          exact ⟨rfl, List.not_mem_nil⟩
        · rintro ⟨same, free⟩
          cases before with
          | nil =>
              cases same
              rfl
          | cons first before =>
              cases same
              exact (free List.mem_cons_self).elim
      next other =>
        rw [Option.map_eq_some_iff]
        constructor
        · rintro ⟨⟨earlier, later⟩, cut, same⟩
          cases same
          obtain ⟨rfl, free⟩ := ih.mp cut
          exact ⟨rfl, by simpa [free] using Ne.symm other⟩
        · rintro ⟨same, free⟩
          cases before with
          | nil =>
              cases same
              exact (other rfl).elim
          | cons first before =>
              cases same
              exact ⟨(before, after), ih.mpr ⟨rfl, fun member => free (List.mem_cons_of_mem _ member)⟩,
                rfl⟩

/-- The cut is at the first mark: none stands before it. -/
theorem firstCut_eq_some {s before after : String} :
    firstCut mark s = some (before, after) ↔
      s.toList = before.toList ++ mark :: after.toList ∧ mark ∉ before.toList := by
  rw [← firstCutChars_eq_some, firstCut, Option.map_eq_some_iff]
  constructor
  · rintro ⟨⟨earlier, later⟩, cut, same⟩
    cases same
    rw [String.toList_ofList, String.toList_ofList]
    exact cut
  · intro cut
    exact ⟨_, cut, by simp⟩

theorem firstCut_eq_none {s : String} : firstCut mark s = none ↔ mark ∉ s.toList := by
  constructor
  · intro none member
    obtain ⟨before, after, same, free⟩ := List.eq_append_cons_of_mem member
    have cut : firstCut mark s = some (String.ofList before, String.ofList after) := by
      rw [firstCut_eq_some]
      simpa using ⟨same, free⟩
    cases none.symm.trans cut
  · intro free
    rw [Option.eq_none_iff_forall_ne_some]
    rintro ⟨before, after⟩ cut
    rw [(firstCut_eq_some.mp cut).1] at free
    exact free (List.mem_append_right _ List.mem_cons_self)

/-! ## Words -/

/-- The runs of characters that are not blank. -/
def runs (cs : List Char) : List (List Char) := (cs.splitOnP isBlank).filter (· ≠ [])

/-- What has been read of a run is the start of the first of the runs. -/
theorem wordsFrom_eq {run : List Char} (filled : ∀ c ∈ run, isBlank c = false) :
    wordsFrom run cs = runs (run.reverse ++ cs) := by
  have free : ∀ c ∈ run.reverse, isBlank c = false :=
    fun c member => filled c (List.mem_reverse.mp member)
  induction cs generalizing run with
  | nil =>
      rw [List.append_nil, runs, List.splitOnP_eq_singleton free, wordsFrom]
      cases run <;> simp
  | cons c cs ih =>
      rw [wordsFrom]
      split
      next blank =>
        rw [runs, List.splitOnP_append_cons_of_forall_mem free c blank, ih (by simp) (by simp)]
        cases run <;> simp [runs]
      next other =>
        have filled : ∀ d ∈ c :: run, isBlank d = false :=
          List.forall_mem_cons.mpr ⟨Bool.eq_false_iff.mpr other, filled⟩
        rw [ih filled fun d member => filled d (List.mem_reverse.mp member), List.reverse_cons,
          List.append_assoc, List.singleton_append]

theorem words_eq (s : String) : words s = (runs s.toList).map String.ofList := by
  rw [words, wordsFrom_eq (by simp)]
  rfl

/-! ## Texts within texts -/

theorem afterChars?_isSome {needle : List Char} :
    (afterChars? needle cs).isSome = true ↔ needle <+: cs := by
  induction needle generalizing cs with
  | nil => simp [afterChars?]
  | cons n needle ih =>
      cases cs with
      | nil => simp [afterChars?]
      | cons c cs =>
          rw [afterChars?, List.cons_prefix_cons]
          split
          next same => rw [ih, and_iff_right same]
          next other => simp [other]

theorem infixChars_iff {needle : List Char} : infixChars needle cs = true ↔ needle <:+: cs := by
  induction cs with
  | nil => rw [infixChars, List.isEmpty_iff, List.infix_nil]
  | cons c cs ih => rw [infixChars, Bool.or_eq_true, afterChars?_isSome, ih, List.infix_cons_iff]

theorem hasText_iff {needle s : String} : hasText needle s = true ↔ needle.toList <:+: s.toList :=
  infixChars_iff

end NetplanEditor.Text
