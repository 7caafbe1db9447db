import Mathlib.Data.List.Forall2
import Noise.Pattern.Reading
import Noise.Proofs.Text.Words
import Noise.Proofs.Transcript

/-!
# Spelled tokens

A word spells a token when its lower case is the name of the token.  A text lists tokens
when it lists words that spell them, with commas and blanks as separators.  Reading
finds exactly the tokens that a text lists.
-/

namespace Noise

section Reading

variable {α β ε : Type} {read : α → Except ε β}

/-- A list is read item by item. -/
theorem mapM_eq_ok_iff {items : List α} {values : List β} :
    items.mapM read = .ok values ↔
      List.Forall₂ (fun item value => read item = .ok value) items values := by
  induction items generalizing values with
  | nil => cases values <;> simp
  | cons item rest ih =>
      simp only [List.mapM_cons, bind_eq_ok, ih, List.forall₂_cons_left_iff]
      constructor
      · rintro ⟨value, first, others, later, made⟩
        exact ⟨value, others, first, later, (Except.ok.inj made).symm⟩
      · rintro ⟨value, others, first, later, rfl⟩
        exact ⟨value, first, others, later, rfl⟩

theorem exists_mapM_eq_ok_iff {items : List α} :
    (∃ values, items.mapM read = .ok values) ↔
      ∀ item ∈ items, ∃ value, read item = .ok value := by
  simp only [mapM_eq_ok_iff]
  induction items with
  | nil => simp
  | cons item rest ih =>
      rw [List.forall_mem_cons, ← ih]
      constructor
      · rintro ⟨_, _ | ⟨first, later⟩⟩
        exact ⟨⟨_, first⟩, _, later⟩
      · rintro ⟨⟨value, first⟩, values, later⟩
        exact ⟨value :: values, .cons first later⟩

/-- The first item that cannot be read decides the error. -/
theorem mapM_eq_error_iff {items : List α} {error : ε} :
    items.mapM read = .error error ↔
      ∃ before item after, items = before ++ item :: after ∧
        (∀ earlier ∈ before, ∃ value, read earlier = .ok value) ∧
          read item = .error error := by
  induction items with
  | nil => simp
  | cons item rest ih =>
      rw [List.mapM_cons, bind_eq_error]
      constructor
      · rintro (now | ⟨value, first, failed⟩)
        · exact ⟨[], item, rest, rfl, List.forall_mem_nil _, now⟩
        · rcases bind_eq_error.1 failed with later | ⟨values, -, made⟩
          · obtain ⟨before, stuck, after, rfl, fine, failed⟩ := ih.1 later
            exact ⟨item :: before, stuck, after, rfl,
              List.forall_mem_cons.2 ⟨⟨value, first⟩, fine⟩, failed⟩
          · cases made
      · rintro ⟨before, stuck, after, same, fine, failed⟩
        cases before with
        | nil =>
            obtain ⟨rfl, rfl⟩ := List.cons.inj same
            exact .inl failed
        | cons earlier before =>
            obtain ⟨rfl, rfl⟩ := List.cons.inj same
            obtain ⟨⟨value, first⟩, fine⟩ := List.forall_mem_cons.1 fine
            refine .inr ⟨value, first, ?_⟩
            rw [ih.2 ⟨before, stuck, after, rfl, fine, failed⟩]
            rfl

theorem exists_forall₂ {related : α → β → Prop}
    (total : ∀ value, ∃ item, related item value) (values : List β) :
    ∃ items, List.Forall₂ related items values := by
  induction values with
  | nil => exact ⟨[], .nil⟩
  | cons value rest ih =>
      obtain ⟨item, first⟩ := total value
      obtain ⟨items, later⟩ := ih
      exact ⟨item :: items, .cons first later⟩

theorem malformed_of_mapError {result : Except Malformed α} {error : ReadError}
    (failed : result.mapError .malformed = .error error) :
    ∃ cause, error = .malformed cause := by
  cases result with
  | ok value => cases failed
  | error cause => exact ⟨cause, (Except.error.inj failed).symm⟩

end Reading

/-! ## Spellings -/

/-- Terms are found by their names. -/
theorem find?_name {α : Type} {all : List α} {name : α → String}
    (complete : ∀ term, term ∈ all) (injective : Function.Injective name)
    {spelling : List Char} {term : α} :
    all.find? (fun other => (name other).toList == spelling) = some term ↔
      spelling = (name term).toList := by
  constructor
  · intro found
    have same := List.find?_some found
    exact (beq_iff_eq.1 same).symm
  · rintro rfl
    cases found :
      all.find? (fun other => (name other).toList == (name term).toList) with
    | none =>
        exact absurd (beq_self_eq_true _)
          (List.find?_eq_none.1 found term (complete term))
    | some other =>
        have same := List.find?_some found
        rw [injective (String.toList_injective (beq_iff_eq.1 same))]

theorem Token.name_injective : Function.Injective Token.name := by
  have distinct : ∀ token ∈ all, ∀ other ∈ all, token.name = other.name →
      token = other := by decide
  intro token other
  exact distinct token (mem_all token) other (mem_all other)

theorem Direction.mem_all (direction : Direction) : direction ∈ all := by
  cases direction <;> decide

theorem Direction.name_injective : Function.Injective Direction.name := by
  intro direction other
  cases direction <;> cases other <;> decide

theorem Token.ofSpelling?_eq_some {text : String} {token : Token} :
    ofSpelling? text = some token ↔ Text.spelling text.toList = token.name.toList :=
  find?_name mem_all name_injective

theorem Direction.ofSpelling?_eq_some {text : String} {direction : Direction} :
    ofSpelling? text = some direction ↔
      Text.spelling text.toList = direction.name.toList :=
  find?_name mem_all name_injective

namespace Stray

variable {object : Stray}

theorem toToken_eq_ok {token : Token} :
    object.toToken = .ok token ↔ Token.ofSpelling? object.plain = some token := by
  rw [toToken]
  cases Token.ofSpelling? object.plain <;> simp

theorem toDirection_eq_ok {direction : Direction} :
    object.toDirection = .ok direction ↔
      Direction.ofSpelling? object.plain = some direction := by
  rw [toDirection]
  cases Direction.ofSpelling? object.plain <;> simp

end Stray

namespace Value

/-- A text that is the name, in any case and with blanks around it. -/
def Spells (value : Value) (name : String) : Prop :=
  ∃ text, value = .text text ∧ Text.spelling text.toList = name.toList

theorem toToken_eq_ok {value : Value} {token : Token} :
    value.toToken = .ok token ↔ value.Spells token.name := by
  cases value with
  | text text =>
      simp only [Spells, Value.text.injEq, exists_eq_left', ← Token.ofSpelling?_eq_some]
      exact Stray.toToken_eq_ok
  | null | bool | int | decimal | list | record => simp [toToken, Spells]

theorem toDirection_eq_ok {value : Value} {direction : Direction} :
    value.toDirection = .ok direction ↔ value.Spells direction.name := by
  cases value with
  | text text =>
      simp only [Spells, Value.text.injEq, exists_eq_left',
        ← Direction.ofSpelling?_eq_some]
      exact Stray.toDirection_eq_ok
  | null | bool | int | decimal | list | record => simp [toDirection, Spells]

end Value

/-! ## Texts that list tokens -/

/-- A word that spells a token: its lower case is the name. -/
def Spells (word : List Char) (token : Token) : Prop :=
  word.map Text.lower = token.name.toList

/-- A text that lists tokens: its words, between commas and blanks, spell them. -/
def ListsTokens (text : List Char) (tokens : List Token) : Prop :=
  ∃ words, Text.Lists isTokenSeparator text words ∧ List.Forall₂ Spells words tokens

theorem lower_of_isTokenSeparator {char : Char}
    (separates : isTokenSeparator char = true) :
    Text.lower char = char := by
  simp only [isTokenSeparator, Text.isBlank, Text.blankRanges, List.any_cons,
    List.any_nil, Bool.or_eq_true, Bool.and_eq_true, decide_eq_true_eq, beq_iff_eq,
    Bool.false_eq_true, or_false] at separates
  have outside : ¬ (65 ≤ char.toNat ∧ char.toNat ≤ 90) ∧ char.toNat ≠ 0x212a := by
    rcases separates with rfl | blank
    · decide
    · omega
  have notKelvin : char ≠ '\u212a' := by
    rintro rfl
    exact outside.2 rfl
  rw [Text.lower, if_neg notKelvin]
  exact dif_neg (by simpa [UInt32.le_iff_toNat_le] using outside.1)

theorem Token.isWord_name (token : Token) :
    Text.IsWord isTokenSeparator token.name.toList := by
  have solid : ∀ token ∈ all,
      token.name.toList ≠ [] ∧
      token.name.toList.all (fun char => !isTokenSeparator char) = true := by decide
  obtain ⟨nonempty, unbroken⟩ := solid token (mem_all token)
  refine ⟨nonempty, fun char mem => ?_⟩
  simpa using List.all_eq_true.1 unbroken char mem

theorem Token.spells_name (token : Token) : Spells token.name.toList token := by
  have lower : ∀ token ∈ all, token.name.toList.map Text.lower = token.name.toList := by
    decide
  exact lower token (mem_all token)

theorem Spells.isWord {word : List Char} {token : Token} (spells : Spells word token) :
    Text.IsWord isTokenSeparator word := by
  constructor
  · rintro rfl
    exact token.isWord_name.nonempty spells.symm
  · intro char mem
    cases separates : isTokenSeparator char with
    | false => rfl
    | true =>
        have letter : Text.lower char ∈ token.name.toList :=
          spells ▸ List.mem_map_of_mem mem
        rw [lower_of_isTokenSeparator separates] at letter
        exact separates.symm.trans (token.isWord_name.unbroken _ letter)

theorem isBlank_of_isTokenSeparator {char : Char}
    (solid : isTokenSeparator char = false) :
    Text.isBlank char = false :=
  (Bool.or_eq_false_iff.1 solid).2

/-- A word between separators spells what it is read as: there are no blanks
to take away. -/
theorem spelling_eq_map_lower {word : List Char}
    (isWord : Text.IsWord isTokenSeparator word) :
    Text.spelling word = word.map Text.lower := by
  have solid : Text.IsWord Text.isBlank word :=
    ⟨isWord.nonempty, fun char mem =>
      isBlank_of_isTokenSeparator (isWord.unbroken char mem)⟩
  rw [Text.spelling, Text.trim_of_isWord solid]

theorem toToken_of_isWord {word : List Char} {token : Token}
    (isWord : Text.IsWord isTokenSeparator word) :
    (Value.text (String.ofList word)).toToken = .ok token ↔ Spells word token := by
  simp [Value.toToken_eq_ok, Value.Spells, spelling_eq_map_lower isWord, Spells]

/-- All tokens can be listed: by their names, each with a blank before it. -/
theorem exists_listsTokens (tokens : List Token) : ∃ text, ListsTokens text tokens := by
  suffices listed :
      ListsTokens (tokens.flatMap fun token => ' ' :: token.name.toList) tokens from
        ⟨_, listed⟩
  induction tokens with
  | nil => exact ⟨[], .gap (List.forall_mem_nil _), .nil⟩
  | cons token rest ih =>
      obtain ⟨words, lists, spell⟩ := ih
      refine ⟨token.name.toList :: words, ?_, .cons token.spells_name spell⟩
      rw [List.flatMap_cons, List.cons_append]
      refine (Text.Lists.word (List.forall_mem_nil _) token.isWord_name ?_ lists).cons
        (by decide)
      cases rest with
      | nil => exact nofun
      | cons next others =>
          rintro char ⟨⟩
          decide

/-- Reading a text finds the tokens that it lists. -/
theorem readTokenText_eq_ok {text : String} {tokens : List Token} :
    readTokenText text = .ok tokens ↔ ListsTokens text.toList tokens := by
  rw [readTokenText, tokenWords, List.mapM_map, mapM_eq_ok_iff]
  constructor
  · intro read
    have lists :
        Text.Lists isTokenSeparator text.toList
          (Text.words isTokenSeparator text.toList) :=
      Text.lists_words _
    refine ⟨_, lists, ?_⟩
    exact ((List.forall₂_and_left _ _).2 ⟨lists.isWord, read⟩).imp
      fun _ _ ⟨isWord, read⟩ => (toToken_of_isWord isWord).1 read
  · rintro ⟨words, lists, spells⟩
    rw [lists.words_eq]
    exact spells.imp fun _ _ spells => (toToken_of_isWord spells.isWord).2 spells

end Noise
