import NetplanEditor.FileSystem.Path

/-!
# Components of paths that are built

Three paths are built from others: the one of a name in a directory, the one with a text behind its
last name, and the parent. What is walked along them is said here in terms of the components of what
they are built from.
-/

namespace NetplanEditor.Path

/-! ## Segments -/

theorem segments_ne_nil (cs : List Char) : segments cs ≠ [] := by
  cases cs with
  | nil => simp [segments]
  | cons c cs =>
      unfold segments
      split
      · simp_all
      · simp
      · split <;> simp

theorem segments_slash_cons (cs : List Char) : segments ('/' :: cs) = [] :: segments cs := rfl

theorem segments_cons {c : Char} (notSlash : c ≠ '/') {cs segment : List Char}
    {rest : List (List Char)} (split : segments cs = segment :: rest) :
    segments (c :: cs) = (c :: segment) :: rest := by
  rw [segments.eq_def]
  split
  · simp_all
  · simp_all
  · simp_all

/-- A slash separates the segments before it from those behind it. -/
theorem segments_append_slash (xs ys : List Char) :
    segments (xs ++ '/' :: ys) = segments xs ++ segments ys := by
  induction xs with
  | nil => rfl
  | cons x xs ih =>
      by_cases slash : x = '/'
      · subst slash
        rw [List.cons_append, segments_slash_cons, segments_slash_cons, ih, List.cons_append]
      · obtain ⟨segment, rest, split⟩ := List.exists_cons_of_ne_nil (segments_ne_nil xs)
        have longer : segments (xs ++ '/' :: ys) = segment :: (rest ++ segments ys) := by
          rw [ih, split, List.cons_append]
        rw [List.cons_append, segments_cons slash longer, segments_cons slash split,
          List.cons_append]

/-- A text without slashes is one segment. -/
theorem segments_of_no_slash {cs : List Char} (free : '/' ∉ cs) : segments cs = [cs] := by
  induction cs with
  | nil => rfl
  | cons c cs ih =>
      rw [List.mem_cons, not_or] at free
      exact segments_cons (Ne.symm free.1) (ih free.2)

/-- No segment holds a slash. -/
theorem no_slash_of_mem_segments {cs segment : List Char} (member : segment ∈ segments cs) :
    '/' ∉ segment := by
  induction cs generalizing segment with
  | nil =>
      rw [List.mem_singleton.mp member]
      exact List.not_mem_nil
  | cons c cs ih =>
      by_cases slash : c = '/'
      · subst slash
        rcases List.mem_cons.mp member with rfl | later
        · exact List.not_mem_nil
        · exact ih later
      · obtain ⟨first, rest, split⟩ := List.exists_cons_of_ne_nil (segments_ne_nil cs)
        rw [segments_cons slash split] at member
        rw [split] at ih
        rcases List.mem_cons.mp member with rfl | later
        · rw [List.mem_cons, not_or]
          exact ⟨Ne.symm slash, ih List.mem_cons_self⟩
        · exact ih (List.mem_cons_of_mem _ later)

/-- Every text is its first segments and a last one behind a slash, unless it has one only. -/
theorem exists_last_segment (cs : List Char) :
    ∃ before last, segments cs = before ++ [last] ∧ '/' ∉ last ∧
      ∀ more, '/' ∉ more → segments (cs ++ more) = before ++ [last ++ more] := by
  induction cs with
  | nil => exact ⟨[], [], rfl, List.not_mem_nil, fun more free => segments_of_no_slash free⟩
  | cons c cs ih =>
      obtain ⟨before, last, split, free, append⟩ := ih
      by_cases slash : c = '/'
      · subst slash
        refine ⟨[] :: before, last, by rw [segments_slash_cons, split]; rfl, free,
          fun more moreFree => ?_⟩
        rw [List.cons_append, segments_slash_cons, append more moreFree, List.cons_append]
      · cases before with
        | nil =>
            refine ⟨[], c :: last, segments_cons slash split, ?_, fun more moreFree => ?_⟩
            · rw [List.mem_cons, not_or]
              exact ⟨Ne.symm slash, free⟩
            · exact segments_cons slash (append more moreFree)
        | cons first rest =>
            refine ⟨(c :: first) :: rest, last, segments_cons slash split, free,
              fun more moreFree => segments_cons slash (append more moreFree)⟩

/-- A text starts with a slash if its first segment is empty and not the last. -/
theorem head?_slash_iff {cs : List Char} :
    cs.head? = some '/' ↔ ∃ others, others ≠ [] ∧ segments cs = [] :: others := by
  constructor
  · intro slash
    obtain ⟨rest, rfl⟩ := List.head?_eq_some_iff.mp slash
    exact ⟨segments rest, segments_ne_nil rest, rfl⟩
  · rintro ⟨others, othersSome, same⟩
    cases cs with
    | nil =>
        cases same
        exact (othersSome rfl).elim
    | cons c rest =>
        by_cases slash : c = '/'
        · rw [slash, List.head?_cons]
        · obtain ⟨segment, later, split⟩ := List.exists_cons_of_ne_nil (segments_ne_nil rest)
          rw [segments_cons slash split] at same
          cases same

/-- Segments are found again in the text that they make. -/
theorem segments_unsegments {segs : List (List Char)} (some : segs ≠ [])
    (free : ∀ segment ∈ segs, '/' ∉ segment) : segments (unsegments segs) = segs := by
  induction segs with
  | nil => exact (some rfl).elim
  | cons segment rest ih =>
      have segmentFree := free segment List.mem_cons_self
      cases rest with
      | nil => exact segments_of_no_slash segmentFree
      | cons next later =>
          have restFree := fun segment member => free segment (List.mem_cons_of_mem _ member)
          have made : unsegments (segment :: next :: later) =
              segment ++ '/' :: unsegments (next :: later) := rfl
          rw [made, segments_append_slash, segments_of_no_slash segmentFree,
            ih (List.cons_ne_nil _ _) restFree]
          rfl

/-! ## Components -/

/-- The components that segments give. -/
def named (segs : List (List Char)) : List String :=
  (segs.filter (!·.isEmpty)).map String.ofList

theorem components_eq (path : String) : components path = named (segments path.toList) := rfl

theorem named_append (left right : List (List Char)) :
    named (left ++ right) = named left ++ named right := by
  simp [named]

/-- The path names something in the directory that its other components lead to. -/
structure Names (path : String) (absolute : Bool) (comps : List String) (name : String) :
    Prop where
  components : components path = comps ++ [name]
  absolute : isAbsolute path = absolute
  slash : endsInSlash path = false
  dot : name ≠ "."
  dots : name ≠ ".."

/-- The components of the directory that a name begins in. -/
def folderOf (front : String) : List String := named (segments front.toList).dropLast

/-- What the last name begins with. -/
def lastOf (front : String) : String :=
  String.ofList ((segments front.toList).getLast (segments_ne_nil _))

theorem isAbsolute_append {front suffix : String} (free : '/' ∉ suffix.toList) :
    isAbsolute (front ++ suffix) = isAbsolute front := by
  unfold isAbsolute
  rw [String.toList_append, List.head?_append]
  cases front.toList with
  | nil =>
      cases rest : suffix.toList with
      | nil => rfl
      | cons c cs =>
          rw [rest, List.mem_cons, not_or] at free
          simpa using Ne.symm free.1
  | cons c cs => rfl

/-- What is put behind a path is put behind its last name, in the same directory. -/
theorem names_append (front : String) {suffix : String} (free : '/' ∉ suffix.toList)
    (long : 2 < suffix.length) :
    Names (front ++ suffix) (isAbsolute front) (folderOf front) (lastOf front ++ suffix) := by
  obtain ⟨before, last, split, _, append⟩ := exists_last_segment front.toList
  have some : suffix.toList ≠ [] := by
    intro none
    rw [← String.length_toList, none] at long
    simp at long
  have length : 2 < (lastOf front ++ suffix).length := by
    rw [String.length_append]
    omega
  refine ⟨?_, isAbsolute_append free, ?_, ?_, ?_⟩
  · have nonempty : (!(last ++ suffix.toList).isEmpty) = true := by simp [some]
    have lastIs : lastOf front ++ suffix = String.ofList (last ++ suffix.toList) := by
      simp [lastOf, split, String.ofList_append]
    rw [components_eq, String.toList_append, append _ free, named_append, lastIs, folderOf, split,
      List.dropLast_concat]
    simp only [named, List.filter_cons, nonempty, if_true, List.filter_nil, List.map_cons,
      List.map_nil]
  · unfold endsInSlash
    have last := List.getLast?_eq_some_getLast some
    have notSlash : suffix.toList.getLast some ≠ '/' :=
      fun slash => free (slash ▸ List.getLast_mem some)
    rw [String.toList_append, List.getLast?_append, last, Option.some_or]
    simpa using notSlash
  · intro same
    rw [same] at length
    exact absurd length (by decide)
  · intro same
    rw [same] at length
    exact absurd length (by decide)

theorem folder_of_slash {front dir name : List Char} (free : '/' ∉ name)
    (same : named (segments dir) = named (segments front)) :
    folderOf (String.ofList (dir ++ '/' :: name)) = components (String.ofList front) ∧
      lastOf (String.ofList (dir ++ '/' :: name)) = String.ofList name := by
  have split : segments (dir ++ '/' :: name) = segments dir ++ [name] := by
    rw [segments_append_slash, segments_of_no_slash free]
  refine ⟨?_, ?_⟩
  · rw [folderOf, String.toList_ofList, split, List.dropLast_concat, components_eq,
      String.toList_ofList, same]
  · simp [lastOf, split]

/-- A name without slashes in a directory begins there, with itself. -/
theorem join_folder {dir name : String} (free : '/' ∉ name.toList) :
    folderOf (join dir name) = components dir ∧ lastOf (join dir name) = name ∧
      isAbsolute (join dir name) = isAbsolute dir := by
  have relative : isAbsolute name = false := by
    have absolute := @isAbsolute_append "" name free
    rwa [String.empty_append] at absolute
  unfold join
  rw [relative]
  simp only [Bool.false_eq_true, if_false]
  by_cases empty : dir = ""
  · subst empty
    have alone : segments name.toList = [name.toList] := segments_of_no_slash free
    have none : "".isEmpty = true := rfl
    rw [none, Bool.true_or, if_pos rfl, String.empty_append]
    refine ⟨?_, ?_, relative⟩
    · rw [folderOf, alone]
      rfl
    · simp [lastOf, alone]
  by_cases slash : endsInSlash dir = true
  · obtain ⟨front, ends⟩ : ∃ front, dir.toList = front ++ ['/'] := by
      have last : dir.toList.getLast? = some '/' := by simpa [endsInSlash] using slash
      exact List.getLast?_eq_some_iff.mp last
    have made : dir ++ name = String.ofList (front ++ '/' :: name.toList) := by
      rw [← String.toList_inj, String.toList_append, ends, String.toList_ofList]
      simp
    have same : named (segments front) = named (segments dir.toList) := by
      rw [ends, segments_append_slash, named_append]
      simp [segments, named]
    rw [slash, Bool.or_true, if_pos rfl]
    refine ⟨?_, ?_, isAbsolute_append free⟩
    · rw [made, (folder_of_slash free same).1, String.ofList_toList]
    · rw [made, (folder_of_slash free same).2, String.ofList_toList]
  · have made : dir ++ "/" ++ name = String.ofList (dir.toList ++ '/' :: name.toList) := by
      rw [← String.toList_inj, String.toList_append, String.toList_append, String.toList_ofList]
      simp
    have notEmpty : dir.isEmpty = false := by simpa using empty
    rw [notEmpty, Bool.false_or, if_neg slash]
    refine ⟨?_, ?_, ?_⟩
    · rw [made, (folder_of_slash free rfl).1, String.ofList_toList]
    · rw [made, (folder_of_slash free rfl).2, String.ofList_toList]
    · rw [isAbsolute_append free]
      unfold isAbsolute
      obtain ⟨c, cs, chars⟩ := List.exists_cons_of_ne_nil
        (fun none => empty (String.toList_eq_nil_iff.mp none) : dir.toList ≠ [])
      rw [String.toList_append, chars]
      rfl

/-! ## Parents -/

/-- Only segments that name nothing are dropped from the end, and one that names something is left
there. -/
theorem dropIdleEnd_spec (segs : List (List Char)) :
    (∃ idle, segs = dropIdleEnd segs ++ idle) ∧
      ∀ before last, dropIdleEnd segs = before ++ [last] → isIdle last = false := by
  refine ⟨⟨(segs.reverse.takeWhile isIdle).reverse, ?_⟩, fun before last ends => ?_⟩
  · rw [dropIdleEnd, ← List.reverse_append, List.takeWhile_append_dropWhile, List.reverse_reverse]
  · have starts : segs.reverse.dropWhile isIdle = last :: before.reverse := by
      have reversed := congrArg List.reverse ends
      simpa [dropIdleEnd] using reversed
    have some : segs.reverse.dropWhile isIdle ≠ [] := by simp [starts]
    have head := List.head_dropWhile_not isIdle some
    simpa [starts] using head

/-- What a parent leaves out holds a component. -/
theorem dropIdleEnd_parent {segs before : List (List Char)} {last : List Char}
    (ends : (dropIdleEnd segs).reverse = last :: before) :
    ∃ left, segs = dropIdleEnd before.reverse ++ left ∧ named left ≠ [] := by
  have whole : dropIdleEnd segs = before.reverse ++ [last] := by
    have reversed := congrArg List.reverse ends
    simpa using reversed
  obtain ⟨⟨idle, split⟩, notIdle⟩ := dropIdleEnd_spec segs
  obtain ⟨⟨inner, beforeSplit⟩, _⟩ := dropIdleEnd_spec before.reverse
  refine ⟨inner ++ [last] ++ idle, ?_, ?_⟩
  · rw [← List.append_assoc, ← List.append_assoc, ← beforeSplit, ← whole]
    exact split
  · have nonempty : last.isEmpty = false := by
      have busy := notIdle before.reverse last whole
      simp only [isIdle, Bool.or_eq_false_iff] at busy
      exact busy.1
    simp [named, nonempty]

/-- A path starts with the root's slash, with a leading dot, or with its first component. -/
theorem lead_cases (cs : List Char) :
    (∃ rest, cs = '/' :: rest ∧ lead cs = (['/'], rest)) ∨
      (cs = ['.'] ∧ lead cs = (['.'], [])) ∨
      (∃ rest, cs = '.' :: '/' :: rest ∧ lead cs = (['.'], '/' :: rest)) ∨
      (cs.head? ≠ some '/' ∧ lead cs = ([], cs)) := by
  unfold lead
  split
  next rest => exact Or.inl ⟨rest, rfl, rfl⟩
  next => exact Or.inr (Or.inl ⟨rfl, rfl⟩)
  next rest => exact Or.inr (Or.inr (Or.inl ⟨rest, rfl, rfl⟩))
  next notSlash _ _ =>
    refine Or.inr (Or.inr (Or.inr ⟨fun slash => ?_, rfl⟩))
    obtain ⟨rest, same⟩ := List.head?_eq_some_iff.mp slash
    exact notSlash rest same

/-- A parent is made of the segments that are left. -/
theorem parent?_some {path parent : String} {start body : List Char}
    (starts : lead path.toList = (start, body)) (isParent : parent? path = some parent)
    (some : parent ≠ "") :
    ∃ kept left, segments body = kept ++ left ∧ named left ≠ [] ∧
      (∀ before last, kept = before ++ [last] → isIdle last = false) ∧
      parent.toList = start ++ unsegments kept := by
  simp only [parent?, starts] at isParent
  cases ends : (dropIdleEnd (segments body)).reverse with
  | nil =>
      rw [ends] at isParent
      simp only at isParent
      split at isParent
      · cases isParent
        exact (some rfl).elim
      · cases isParent
  | cons last before =>
      rw [ends] at isParent
      cases isParent
      obtain ⟨left, split, nonempty⟩ := dropIdleEnd_parent ends
      exact ⟨_, left, split, nonempty, (dropIdleEnd_spec before.reverse).2, String.toList_ofList⟩

theorem no_slash_of_kept {cs : List Char} {kept left : List (List Char)}
    (split : segments cs = kept ++ left) : ∀ segment ∈ kept, '/' ∉ segment := by
  intro segment member
  have isSegment : segment ∈ segments cs := by
    rw [split]
    exact List.mem_append_left _ member
  exact no_slash_of_mem_segments isSegment

section Parent

variable {path parent : String} {body rest : List Char} {kept left : List (List Char)}

/-- The parent of a path from the root. -/
theorem parent_of_root (chars : path.toList = '/' :: rest) (split : segments rest = kept ++ left)
    (made : parent.toList = ['/'] ++ unsegments kept) :
    isAbsolute parent = isAbsolute path ∧
      components path = components parent ++ named left := by
  have keptSegments : named (segments parent.toList) = named kept := by
    rw [made, List.singleton_append, segments_slash_cons]
    cases kept with
    | nil => rfl
    | cons first others =>
        rw [segments_unsegments (List.cons_ne_nil _ _) (no_slash_of_kept split)]
        rfl
  refine ⟨by simp [isAbsolute, made, chars], ?_⟩
  rw [components_eq, components_eq, keptSegments, chars, segments_slash_cons, split]
  exact named_append ([] :: kept) left

/-- The parent of a path from here on, which keeps the dot that it starts with. -/
theorem parent_of_dot (chars : path.toList = '.' :: '/' :: rest)
    (split : segments ('/' :: rest) = kept ++ left)
    (ends : ∀ before last, kept = before ++ [last] → isIdle last = false)
    (made : parent.toList = ['.'] ++ unsegments kept) :
    isAbsolute parent = isAbsolute path ∧
      components path = components parent ++ named left := by
  have pathSegments : segments path.toList = ['.'] :: segments rest := by
    rw [chars]
    exact segments_append_slash ['.'] rest
  rw [segments_slash_cons] at split
  cases kept with
  | nil =>
      have dot : components parent = named [['.']] := by
        rw [components_eq, made]
        rfl
      refine ⟨by simp [isAbsolute, made, chars, unsegments], ?_⟩
      rw [List.nil_append] at split
      rw [dot, components_eq, pathSegments, ← named_append, ← split]
      rfl
  | cons first others =>
      rw [List.cons_append, List.cons.injEq] at split
      obtain ⟨rfl, split⟩ := split
      cases others with
      | nil =>
          have idle := ends [] [] rfl
          cases idle
      | cons second later =>
          have parentSegments : segments parent.toList = ['.'] :: second :: later := by
            have slash : unsegments ([] :: second :: later) =
              '/' :: unsegments (second :: later) := rfl
            rw [made, slash, List.singleton_append]
            refine (segments_append_slash ['.'] _).trans ?_
            rw [segments_unsegments (List.cons_ne_nil _ _) (no_slash_of_kept split)]
            rfl
          refine ⟨by simp [isAbsolute, made, chars], ?_⟩
          rw [components_eq, components_eq, pathSegments, parentSegments, split]
          exact named_append (['.'] :: second :: later) left

/-- The parent of any other path. -/
theorem parent_of_relative (relative : path.toList.head? ≠ some '/')
    (split : segments path.toList = kept ++ left) (keptSome : kept ≠ [])
    (made : parent.toList = unsegments kept) :
    isAbsolute parent = isAbsolute path ∧
      components path = components parent ++ named left := by
  have parentSegments : segments parent.toList = kept := by
    rw [made]
    exact segments_unsegments keptSome (no_slash_of_kept split)
  constructor
  · have pathRelative : isAbsolute path = false := by simpa [isAbsolute] using relative
    rw [pathRelative, ← Bool.not_eq_true]
    intro absolute
    have starts : parent.toList.head? = some '/' := by simpa [isAbsolute] using absolute
    obtain ⟨others, othersSome, same⟩ := head?_slash_iff.mp starts
    refine relative (head?_slash_iff.mpr ⟨others ++ left, by simp [othersSome], ?_⟩)
    rw [split, ← parentSegments, same, List.cons_append]
  · rw [components_eq, components_eq, parentSegments, split]
    exact named_append kept left

end Parent

/-- A parent other than the empty path leads along the first components of its path. -/
theorem parent_components {path parent : String} (isParent : parent? path = some parent)
    (some : parent ≠ "") :
    isAbsolute parent = isAbsolute path ∧
      ∃ left, left ≠ [] ∧ components path = components parent ++ left := by
  rcases lead_cases path.toList with ⟨rest, chars, starts⟩ | ⟨chars, starts⟩ |
    ⟨rest, chars, starts⟩ | ⟨relative, starts⟩
  · obtain ⟨kept, left, split, nonempty, _, made⟩ := parent?_some starts isParent some
    obtain ⟨absolute, same⟩ := parent_of_root chars split made
    exact ⟨absolute, named left, nonempty, same⟩
  · obtain ⟨kept, left, split, nonempty, _, _⟩ := parent?_some starts isParent some
    have none : named kept ++ named left = [] := by
      rw [← named_append, ← split]
      rfl
    exact (nonempty (List.append_eq_nil_iff.mp none).2).elim
  · obtain ⟨kept, left, split, nonempty, ends, made⟩ := parent?_some starts isParent some
    obtain ⟨absolute, same⟩ := parent_of_dot chars split ends made
    exact ⟨absolute, named left, nonempty, same⟩
  · obtain ⟨kept, left, split, nonempty, _, made⟩ := parent?_some starts isParent some
    have keptSome : kept ≠ [] := by
      intro none
      rw [none] at made
      exact some (String.toList_eq_nil_iff.mp made)
    obtain ⟨absolute, same⟩ := parent_of_relative relative split keptSome made
    exact ⟨absolute, named left, nonempty, same⟩

theorem parent?_empty : parent? "" = none := rfl

theorem ancestorsWithin_components {fuel : Nat} {path ancestor : String}
    (member : ancestor ∈ ancestorsWithin fuel path) (some : ancestor ≠ "") :
    isAbsolute ancestor = isAbsolute path ∧
      ∃ rest, components path = components ancestor ++ rest := by
  induction fuel generalizing path with
  | zero => exact (List.not_mem_nil member).elim
  | succ fuel ih =>
      rcases List.mem_cons.mp member with rfl | above
      · exact ⟨rfl, [], (List.append_nil _).symm⟩
      · cases isParent : parent? path with
        | none =>
            rw [isParent] at above
            exact (List.not_mem_nil above).elim
        | some parent =>
            rw [isParent] at above
            obtain ⟨sameStart, rest, split⟩ := ih above
            have parentSome : parent ≠ "" := by
              rintro rfl
              cases fuel with
              | zero => exact List.not_mem_nil above
              | succ fuel =>
                  simp only [ancestorsWithin, parent?_empty, List.mem_singleton] at above
                  exact some above
            obtain ⟨start, left, _, parentSplit⟩ := parent_components isParent parentSome
            refine ⟨sameStart.trans start, rest ++ left, ?_⟩
            rw [parentSplit, split, List.append_assoc]

/-- A path above a name leads along the first components of the name's directory. -/
theorem Names.ancestor {path parent ancestor name : String} {absolute : Bool} {comps : List String}
    (names : Names path absolute comps name) (isParent : parent? path = some parent)
    (member : ancestor ∈ ancestors parent) (some : ancestor ≠ "") :
    isAbsolute ancestor = absolute ∧ ∃ rest, comps = Path.components ancestor ++ rest := by
  obtain ⟨start, rest, split⟩ := ancestorsWithin_components member some
  have parentSome : parent ≠ "" := by
    rintro rfl
    simp only [ancestors, ancestorsWithin, parent?_empty, List.mem_singleton] at member
    exact some member
  obtain ⟨parentStart, left, leftSome, parentSplit⟩ := parent_components isParent parentSome
  refine ⟨start.trans (parentStart.trans names.absolute), rest ++ left.dropLast, ?_⟩
  have whole : comps ++ [name] = Path.components ancestor ++ (rest ++ left) := by
    rw [← names.components, parentSplit, split, List.append_assoc]
  have dropped := congrArg List.dropLast whole
  rw [List.dropLast_concat] at dropped
  rw [dropped, List.dropLast_append_of_ne_nil (by simp [leftSome]),
    List.dropLast_append_of_ne_nil leftSome]

end NetplanEditor.Path
