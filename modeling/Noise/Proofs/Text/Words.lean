import Mathlib.Data.List.DropRight
import Noise.Text.Blank

/-!
# What a text lists

A text lists some words when it consists of them in order, with separators around them
and at least one separator between any two.  Cutting a text into words finds exactly the
words that it lists.  Trimming a text takes the blanks at its ends away and nothing
else.  What is joined by a separator can be told apart at the first place where the
separator stands, if it does not stand in the first part, and at the last place, if it
does not stand in the last.
-/

namespace Noise.Text

variable {separator : Char → Bool} {text gap rest : List Char} {word : List Char}
  {found : List (List Char)}

/-! ## Words -/

/-- A text of separators only. -/
def IsGap (separator : Char → Bool) (text : List Char) : Prop :=
  ∀ char ∈ text, separator char = true

/-- A text without separators that is not empty. -/
structure IsWord (separator : Char → Bool) (word : List Char) : Prop where
  nonempty : word ≠ []
  unbroken : ∀ char ∈ word, separator char = false

/-- A text that consists of words and separators.  After a word comes a
separator or the end. -/
inductive Lists (separator : Char → Bool) : List Char → List (List Char) → Prop where
  | gap {gap : List Char} : IsGap separator gap → Lists separator gap []
  | word {gap word rest : List Char} {found : List (List Char)} :
      IsGap separator gap → IsWord separator word →
      (∀ char ∈ rest.head?, separator char = true) →
      Lists separator rest found → Lists separator (gap ++ word ++ rest) (word :: found)

theorem IsGap.cons {char : Char} (separates : separator char = true)
    (isGap : IsGap separator gap) :
    IsGap separator (char :: gap) :=
  List.forall_mem_cons.2 ⟨separates, isGap⟩

theorem IsGap.append (isGap : IsGap separator text) (otherGap : IsGap separator gap) :
    IsGap separator (text ++ gap) :=
  List.forall_mem_append.2 ⟨isGap, otherGap⟩

theorem Lists.cons {char : Char} (separates : separator char = true)
    (lists : Lists separator text found) :
    Lists separator (char :: text) found := by
  cases lists with
  | gap isGap => exact .gap (isGap.cons separates)
  | word isGap isWord boundary rest =>
      exact .word (isGap.cons separates) isWord boundary rest

theorem Lists.append (lists : Lists separator text found)
    (isGap : IsGap separator gap) :
    Lists separator (text ++ gap) found := by
  induction lists with
  | gap before => exact .gap (before.append isGap)
  | @word _ _ rest _ before isWord boundary _ ih =>
      rw [List.append_assoc]
      refine .word before isWord ?_ ih
      intro char first
      cases rest with
      | nil => exact isGap char (List.mem_of_mem_head? first)
      | cons next others => exact boundary char first

theorem Lists.isWord (lists : Lists separator text found) :
    ∀ word ∈ found, IsWord separator word := by
  induction lists with
  | gap => exact List.forall_mem_nil _
  | word _ isWord _ _ ih => exact List.forall_mem_cons.2 ⟨isWord, ih⟩

/-- A separator starts a new word. -/
theorem splitFirst_of_boundary (boundary : ∀ char ∈ rest.head?, separator char = true) :
    splitFirst separator rest = ([], words separator rest) := by
  cases rest with
  | nil => rfl
  | cons char others => simp [splitFirst, words, boundary char rfl]

theorem splitFirst_append (unbroken : ∀ char ∈ word, separator char = false)
    (boundary : ∀ char ∈ rest.head?, separator char = true) :
    splitFirst separator (word ++ rest) = (word, words separator rest) := by
  induction word with
  | nil => exact splitFirst_of_boundary boundary
  | cons char others ih =>
      obtain ⟨solid, unbroken⟩ := List.forall_mem_cons.1 unbroken
      simp [splitFirst, solid, ih unbroken]

theorem words_cons {char : Char} (separates : separator char = true) :
    words separator (char :: text) = words separator text := by
  simp [words, splitFirst, separates]

theorem words_gap (isGap : IsGap separator gap) :
    words separator (gap ++ text) = words separator text := by
  induction gap with
  | nil => rfl
  | cons char others ih =>
      obtain ⟨separates, isGap⟩ := List.forall_mem_cons.1 isGap
      rw [List.cons_append, words_cons separates, ih isGap]

theorem words_word (isWord : IsWord separator word)
    (boundary : ∀ char ∈ rest.head?, separator char = true) :
    words separator (word ++ rest) = word :: words separator rest := by
  rw [words, splitFirst_append isWord.unbroken boundary]
  simp [isWord.nonempty]

theorem Lists.words_eq (lists : Lists separator text found) :
    words separator text = found := by
  induction lists with
  | @gap gap isGap =>
      rw [← List.append_nil gap, words_gap isGap]
      rfl
  | word isGap isWord boundary _ ih =>
      rw [List.append_assoc, words_gap isGap, words_word isWord boundary, ih]

/-- A text lists its words.  A word reaches as far as the next separator, and what comes
after it is shorter. -/
theorem lists_words (text : List Char) :
    Lists separator text (words separator text) := by
  cases text with
  | nil => exact .gap (List.forall_mem_nil _)
  | cons char others =>
      cases separates : separator char with
      | true =>
          rw [words_cons separates]
          exact (lists_words others).cons separates
      | false =>
          let solid (char : Char) : Bool := !separator char
          have isWord : IsWord separator (char :: others.takeWhile solid) := by
            refine ⟨List.cons_ne_nil _ _, List.forall_mem_cons.2 ⟨separates, ?_⟩⟩
            intro next taken
            simpa [solid] using List.mem_takeWhile_imp taken
          have boundary : ∀ next ∈ (others.dropWhile solid).head?,
              separator next = true := by
            intro next first
            have stopped := List.head?_dropWhile_not solid others
            rw [Option.mem_def.1 first] at stopped
            simpa [solid] using stopped
          have cut : char :: others = [] ++ (char :: others.takeWhile solid) ++
              others.dropWhile solid := by
            simp [List.takeWhile_append_dropWhile]
          rw [cut, List.append_assoc, List.nil_append, words_word isWord boundary]
          exact .word (List.forall_mem_nil _) isWord boundary
            (lists_words (others.dropWhile solid))
termination_by text.length
decreasing_by
  · exact Nat.lt_succ_of_le (List.length_dropWhile_le _ _)
  · exact Nat.lt_succ_self _

/-- The words of a text are those that it lists. -/
theorem words_eq_iff : words separator text = found ↔ Lists separator text found := by
  constructor
  · rintro rfl
    exact lists_words text
  · exact Lists.words_eq

theorem words_append_gap (isGap : IsGap separator gap) :
    words separator (text ++ gap) = words separator text :=
  ((lists_words text).append isGap).words_eq

/-! ## Trimming -/

theorem trim_eq (text : List Char) :
    trim text = (text.dropWhile isBlank).rdropWhile isBlank := rfl

/-- A text without its trailing blanks lists the same words, if blanks separate. -/
theorem words_rdropWhile
    (separates : ∀ char, isBlank char = true → separator char = true)
    (text : List Char) :
    words separator (text.rdropWhile isBlank) = words separator text := by
  have isGap : IsGap separator (text.rtakeWhile isBlank) :=
    fun char taken => separates char (List.mem_rtakeWhile_imp taken)
  calc words separator (text.rdropWhile isBlank)
      = words separator (text.rdropWhile isBlank ++ text.rtakeWhile isBlank) :=
    (words_append_gap isGap).symm
    _ = words separator text := by rw [List.rdropWhile_append_rtakeWhile]

theorem rdropWhile_append (solid : IsWord isBlank word) (text : List Char) :
    (word ++ text).rdropWhile isBlank = word ++ text.rdropWhile isBlank := by
  induction text using List.reverseRecOn with
  | nil =>
      rw [List.append_nil, List.rdropWhile_nil, List.append_nil,
        List.rdropWhile_eq_self_iff]
      intro nonempty
      simp [solid.unbroken _ (List.getLast_mem nonempty)]
  | append_singleton others last ih =>
      rw [← List.append_assoc, List.rdropWhile_concat, List.rdropWhile_concat, ih]
      split
      · rfl
      · rw [List.append_assoc]

/-- Behind a word without blanks only the trailing blanks go away. -/
theorem trim_append (solid : IsWord isBlank word) (text : List Char) :
    trim (word ++ text) = word ++ text.rdropWhile isBlank := by
  have kept : (word ++ text).dropWhile isBlank = word ++ text := by
    cases word with
    | nil => exact absurd rfl solid.nonempty
    | cons char others => simp [solid.unbroken char List.mem_cons_self]
  rw [trim_eq, kept, rdropWhile_append solid]

theorem trim_of_isWord (solid : IsWord isBlank word) : trim word = word := by
  simpa using trim_append solid []

/-- Trimming twice is trimming once. -/
theorem trim_trim (text : List Char) : trim (trim text) = trim text := by
  have kept : (trim text).dropWhile isBlank = trim text := by
    cases trimmed : trim text with
    | nil => rfl
    | cons char others =>
        -- The trimmed text starts like the text without its leading blanks.
        obtain ⟨rest, whole⟩ : char :: others <+: text.dropWhile isBlank := by
          rw [← trimmed, trim_eq]
          exact List.rdropWhile_prefix _ _
        have stopped := List.head?_dropWhile_not isBlank text
        rw [← whole] at stopped
        exact List.dropWhile_cons_of_neg (by simpa using stopped)
  rw [trim_eq (trim text), kept, trim_eq, List.rdropWhile_idempotent]

/-! ## Cuts -/

section Cuts

variable {α : Type} {before after otherBefore otherAfter : List α}

theorem takeWhile_of_boundary {holds : α → Bool}
    (inside : ∀ element ∈ before, holds element = true)
    (boundary : ∀ element ∈ after.head?, holds element = false) :
    (before ++ after).takeWhile holds = before := by
  rw [List.takeWhile_append_of_pos inside]
  cases after with
  | nil => exact List.append_nil before
  | cons element others =>
      rw [List.takeWhile_cons_of_neg (by simp [boundary element rfl]), List.append_nil]

/-- There is one way to cut a list where a condition fails for the first time. -/
theorem cut_at_boundary {holds : α → Bool}
    (inside : ∀ element ∈ before, holds element = true)
    (otherInside : ∀ element ∈ otherBefore, holds element = true)
    (boundary : ∀ element ∈ after.head?, holds element = false)
    (otherBoundary : ∀ element ∈ otherAfter.head?, holds element = false)
    (same : before ++ after = otherBefore ++ otherAfter) :
    before = otherBefore ∧ after = otherAfter := by
  obtain rfl : before = otherBefore :=
    calc before = (before ++ after).takeWhile holds :=
      (takeWhile_of_boundary inside boundary).symm
      _ = (otherBefore ++ otherAfter).takeWhile holds := by rw [same]
      _ = otherBefore := takeWhile_of_boundary otherInside otherBoundary
  exact ⟨rfl, List.append_cancel_left same⟩

variable [DecidableEq α] {divider : α}

/-- There is one way to cut a list at the first place of a divider. -/
theorem cut_at_first (solid : divider ∉ before) (otherSolid : divider ∉ otherBefore)
    (same : before ++ divider :: after = otherBefore ++ divider :: otherAfter) :
    before = otherBefore ∧ after = otherAfter := by
  have differs : ∀ {part : List α}, divider ∉ part →
      ∀ element ∈ part, decide (element ≠ divider) = true :=
    fun absent element present => decide_eq_true (ne_of_mem_of_not_mem present absent)
  have stops : ∀ {rest : List α}, ∀ element ∈ (divider :: rest).head?,
      decide (element ≠ divider) = false := by
    simp
  obtain ⟨sameBefore, sameAfter⟩ :=
    cut_at_boundary (differs solid) (differs otherSolid) stops stops same
  exact ⟨sameBefore, (List.cons.inj sameAfter).2⟩

/-- There is one way to cut a list at the last place of a divider. -/
theorem cut_at_last (solid : divider ∉ after) (otherSolid : divider ∉ otherAfter)
    (same : before ++ divider :: after = otherBefore ++ divider :: otherAfter) :
    before = otherBefore ∧ after = otherAfter := by
  have reversed := congrArg List.reverse same
  simp only [List.reverse_append, List.reverse_cons, List.append_assoc,
    List.singleton_append] at reversed
  obtain ⟨sameAfter, sameBefore⟩ :=
    cut_at_first (List.mem_reverse.not.2 solid)
      (List.mem_reverse.not.2 otherSolid) reversed
  exact ⟨List.reverse_injective sameBefore, List.reverse_injective sameAfter⟩

end Cuts

end Noise.Text
