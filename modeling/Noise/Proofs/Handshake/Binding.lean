import Mathlib.Data.List.Basic
import Mathlib.Data.List.Induction
import Noise.Proofs.Handshake.WellFormed

/-!
# What a transcript binds

Two transcripts that take in entries of the same kinds and come to the same hash have
hashed the same data, or a collision of the hash function lies among what they have
hashed.  In the same way the first key that a transcript leaves binds its secrets.  A
collision is shown and never assumed away.
-/

namespace Noise

/-! ## Folds -/

section Folds

variable {State Input : Type} (step : State → Input → State)

/-- What each step of a fold is applied to. -/
def trail (state : State) : List Input → List (State × Input)
  | [] => []
  | input :: rest => (state, input) :: trail (step state input) rest

theorem trail_append (state : State) (inputs others : List Input) :
    trail step state (inputs ++ others) =
      trail step state inputs ++ trail step (inputs.foldl step state) others := by
  induction inputs generalizing state with
  | nil => rfl
  | cons input rest ih => exact congrArg ((state, input) :: ·) (ih _)

/-- Folds that come to the same have the same inputs, or two different steps of
them come to the same. -/
theorem inputs_eq_or_meet {state : State} {inputs others : List Input}
    (length : inputs.length = others.length)
    (same : inputs.foldl step state = others.foldl step state) :
    inputs = others ∨
      ∃ one ∈ trail step state inputs, ∃ other ∈ trail step state others,
        one ≠ other ∧ step one.1 one.2 = step other.1 other.2 := by
  -- From the back: if the last steps are applied to the same, the folds before them
  -- come to the same.
  induction inputs using List.reverseRecOn generalizing others with
  | nil => exact .inl (List.length_eq_zero_iff.1 length.symm).symm
  | append_singleton inputs input ih =>
      rcases List.eq_nil_or_concat' others with rfl | ⟨others, last, rfl⟩
      · simp at length
      · simp only [List.foldl_append, List.foldl_cons, List.foldl_nil] at same
        simp only [trail_append, trail, List.mem_append, List.mem_singleton]
        by_cases sameStep :
          (inputs.foldl step state, input) = (others.foldl step state, last)
        · obtain ⟨sameState, rfl⟩ := Prod.mk.inj sameStep
          rcases ih (by simpa using length) sameState with
            rfl | ⟨one, before, other, beforeOther, meet⟩
          · exact .inl rfl
          · exact .inr ⟨one, .inl before, other, .inl beforeOther, meet⟩
        · exact .inr ⟨_, .inr rfl, _, .inr rfl, sameStep, same⟩

end Folds

/-! ## Hashed data -/

namespace Chain

variable {suite : Suite} {chain : Chain} {entries others : List Entry}

/-- What entries give the hash function after the hash so far. -/
def hashedData (suite : Suite) (chain : Chain) : List Entry → List Bytes
  | [] => []
  | entry :: rest =>
      (chain.hashed suite entry).toList ++ hashedData suite (chain.mix suite entry) rest

/-- The inputs of the hash function. -/
def hashInputs (suite : Suite) (chain : Chain) (entries : List Entry) : List Bytes :=
  (trail suite.absorb chain.h (chain.hashedData suite entries)).map fun input =>
    input.1 ++ input.2

theorem h_foldl_mix (chain : Chain) (entries : List Entry) :
    (entries.foldl (·.mix suite) chain).h =
      (chain.hashedData suite entries).foldl suite.absorb chain.h := by
  induction entries generalizing chain with
  | nil => rfl
  | cons entry rest ih =>
      rw [List.foldl_cons, ih, hashedData, List.foldl_append]
      cases given : chain.hashed suite entry with
      | none => simp [mix, given]
      | some data => simp [mix, given]

theorem length_hashedData (chain other : Chain)
    (mixings : entries.map (·.mixing) = others.map (·.mixing)) :
    (chain.hashedData suite entries).length =
      (other.hashedData suite others).length := by
  induction entries generalizing chain other others with
  | nil =>
      obtain rfl : others = [] := by simpa using mixings.symm
      rfl
  | cons entry rest ih =>
      cases others with
      | nil => simp at mixings
      | cons entry' rest' =>
          simp only [List.map_cons, List.cons.injEq] at mixings
          rw [hashedData, hashedData, List.length_append, List.length_append,
            ih _ (other.mix suite entry') mixings.2, hashed, hashed, mixings.1]
          cases entry'.mixing <;> rfl

/-- What is hashed as it is can be read off what is hashed. -/
theorem data_eq_of_hashedData (chain other : Chain)
    (mixings : entries.map (·.mixing) = others.map (·.mixing))
    (same : chain.hashedData suite entries = other.hashedData suite others) :
    entries.map Entry.data? = others.map Entry.data? := by
  induction entries generalizing chain other others with
  | nil =>
      obtain rfl : others = [] := by simpa using mixings.symm
      rfl
  | cons entry rest ih =>
      cases others with
      | nil => simp at mixings
      | cons entry' rest' =>
          simp only [List.map_cons, List.cons.injEq] at mixings ⊢
          obtain ⟨mixing, bytes⟩ := entry
          obtain ⟨mixing', bytes'⟩ := entry'
          obtain ⟨rfl, mixings⟩ := mixings
          cases mixing with
          | hash =>
              obtain ⟨rfl, same⟩ := List.cons.inj same
              exact ⟨rfl, ih _ _ mixings same⟩
          | key => exact ⟨rfl, ih _ _ mixings same⟩
          | keyAndHash => exact ⟨rfl, ih _ _ mixings (List.cons.inj same).2⟩

theorem length_of_mem_trail {h : Bytes} (length : h.length = suite.hash.length)
    (data : List Bytes) :
    ∀ input ∈ trail suite.absorb h data, input.1.length = suite.hash.length := by
  induction data generalizing h with
  | nil => intro input mem; cases mem
  | cons first rest ih =>
      intro input mem
      rcases List.mem_cons.1 mem with rfl | mem
      · exact length
      · exact ih (HashFunction.length_digest ..) input mem

/-- The hash binds the hashed data. -/
theorem data_eq_or_collision (length : chain.h.length = suite.hash.length)
    (mixings : entries.map (·.mixing) = others.map (·.mixing))
    (same : (entries.foldl (·.mix suite) chain).h =
      (others.foldl (·.mix suite) chain).h) :
    entries.map Entry.data? = others.map Entry.data? ∨
      ∃ one ∈ chain.hashInputs suite entries, ∃ other ∈ chain.hashInputs suite others,
        one ≠ other ∧ suite.hash.digest one = suite.hash.digest other := by
  rw [h_foldl_mix, h_foldl_mix] at same
  rcases inputs_eq_or_meet suite.absorb
    (length_hashedData chain chain mixings) same with
    sameData | ⟨one, oneMem, other, otherMem, different, meet⟩
  · exact .inl (data_eq_of_hashedData chain chain mixings sameData)
  · refine .inr
      ⟨_, List.mem_map_of_mem oneMem, _, List.mem_map_of_mem otherMem, ?_, meet⟩
    -- Both hashes have the same length, so the inputs differ where the hash or the data
    -- does.
    intro sameInput
    apply different
    have sameLength := (length_of_mem_trail length _ one oneMem).trans
      (length_of_mem_trail length _ other otherMem).symm
    exact Prod.ext_iff.2 (List.append_inj sameInput sameLength)

/-! ## Secrets -/

/-- What the derivation of keys is applied to, up to the derivation of the transport
keys, which takes no secret in. -/
def derivations (suite : Suite) (chain : Chain) (entries : List Entry) :
    List (Bytes × Bytes) :=
  trail suite.derive chain.ck (entries.filterMap Entry.secret? ++ [[]])

theorem ck_foldl_mix (chain : Chain) (entries : List Entry) :
    (entries.foldl (·.mix suite) chain).ck =
      (entries.filterMap Entry.secret?).foldl suite.derive chain.ck := by
  induction entries generalizing chain with
  | nil => rfl
  | cons entry rest ih =>
      rw [List.foldl_cons, ih, List.filterMap_cons]
      cases given : entry.secret? with
      | none => simp [mix, given]
      | some secret => simp [mix, given]

theorem length_secrets (entries : List Entry) :
    (entries.filterMap Entry.secret?).length =
      (entries.map (·.mixing)).countP (· ≠ .hash) := by
  rw [List.length_filterMap_eq_countP, List.countP_map]
  congr 1
  funext entry
  obtain ⟨mixing, bytes⟩ := entry
  cases mixing <;> rfl

/-- The first transport key binds the secrets. -/
theorem secrets_eq_or_collision
    (mixings : entries.map (·.mixing) = others.map (·.mixing))
    (same : ((entries.foldl (·.mix suite) chain).ending suite).first.key =
      ((others.foldl (·.mix suite) chain).ending suite).first.key) :
    entries.filterMap Entry.secret? = others.filterMap Entry.secret? ∨
      ∃ one ∈ chain.derivations suite entries, ∃ other ∈ chain.derivations suite others,
        one ≠ other ∧
        (suite.derive one.1 one.2).take keyLength =
          (suite.derive other.1 other.2).take keyLength := by
  have sameKey := Option.some.inj same
  rw [ck_foldl_mix, ck_foldl_mix] at sameKey
  simp only [derivations, trail_append, trail, List.mem_append, List.mem_singleton]
  by_cases sameChain : (entries.filterMap Entry.secret?).foldl suite.derive chain.ck =
      (others.filterMap Entry.secret?).foldl suite.derive chain.ck
  · have length : (entries.filterMap Entry.secret?).length =
        (others.filterMap Entry.secret?).length := by
      rw [length_secrets, length_secrets, mixings]
    rcases inputs_eq_or_meet suite.derive length sameChain with
      sameSecrets | ⟨one, oneMem, other, otherMem, different, meet⟩
    · exact .inl sameSecrets
    · exact .inr ⟨one, .inl oneMem, other, .inl otherMem, different, congrArg _ meet⟩
  · refine .inr ⟨_, .inr rfl, _, .inr rfl, ?_, sameKey⟩
    intro samePair
    exact sameChain (Prod.mk.inj samePair).1

end Chain

end Noise
