import Noise.State.Symmetric

/-!
# Derived keys

A derivation cuts one stream of key material into outputs.  The cuts fall on the
boundaries of the blocks that make up the stream, so the outputs are the blocks: a chain
of codes, each of the one before it.  Therefore every output has the length of a digest,
and the outputs do not depend on how many are asked for.
-/

namespace Noise

/-- Blocks of one length that have been joined are found again at the
multiples of the length. -/
theorem Bytes.cut_flatten {size place : Nat} {blocks : List Bytes} {block : Bytes}
    (sized : ∀ block ∈ blocks, block.length = size)
    (found : blocks[place]? = some block) :
    (blocks.flatten.drop (place * size)).take size = block := by
  induction blocks generalizing place with
  | nil => cases found
  | cons first rest ih =>
      obtain ⟨firstSized, restSized⟩ := List.forall_mem_cons.1 sized
      rw [List.flatten_cons]
      cases place with
      | zero =>
          obtain rfl := Option.some.inj found
          rw [Nat.zero_mul, List.drop_zero, List.take_left' firstSized]
      | succ place =>
          rw [Nat.succ_mul, Nat.add_comm, ← List.drop_drop, List.drop_left' firstSized]
          exact ih restSized found

namespace HashFunction

variable (function : HashFunction) (key info chainingKey material : Bytes)

theorem length_pos : 0 < function.length := by
  cases function <;> decide

theorem keyLength_le_length : keyLength ≤ function.length := by
  cases function <;> decide

/-! ## The blocks of an expansion -/

theorem length_expandBlocks (count number : Nat) (previous : Bytes) :
    (function.expandBlocks key info count number previous).length = count := by
  induction count generalizing number previous with
  | zero => rfl
  | succ count ih => rw [expandBlocks, List.length_cons, ih]

variable {function key info}

theorem length_of_mem_expandBlocks {count number : Nat} {previous : Bytes} :
    ∀ block ∈ function.expandBlocks key info count number previous,
      block.length = function.length := by
  induction count generalizing number previous with
  | zero => exact List.forall_mem_nil _
  | succ count ih => exact List.forall_mem_cons.2 ⟨length_hmac .., ih⟩

/-- The first blocks do not depend on how many follow. -/
theorem take_expandBlocks {fewer count : Nat} (number : Nat) (previous : Bytes)
    (le : fewer ≤ count) :
    (function.expandBlocks key info count number previous).take fewer =
      function.expandBlocks key info fewer number previous := by
  induction count generalizing fewer number previous with
  | zero =>
      obtain rfl := Nat.le_zero.1 le
      rfl
  | succ count ih =>
      cases fewer with
      | zero => rfl
      | succ fewer =>
          rw [expandBlocks, List.take_succ_cons, ih _ _ (Nat.le_of_succ_le_succ le),
            expandBlocks]

/-- Every block but the first is the code of the block before it, the context
and its own number. -/
theorem getElem?_expandBlocks_succ {count number place : Nat} {previous block : Bytes}
    (inside : place + 1 < count)
    (found : (function.expandBlocks key info count number previous)[place]? =
      some block) :
    (function.expandBlocks key info count number previous)[place + 1]? =
      some (function.hmac key
        (block ++ info ++ [UInt8.ofNat (number + place + 1)])) := by
  induction count generalizing number place previous with
  | zero => exact absurd inside (Nat.not_lt_zero _)
  | succ count ih =>
      cases place with
      | zero =>
          obtain rfl := Option.some.inj found
          obtain ⟨others, rfl⟩ :=
            Nat.exists_eq_succ_of_ne_zero (Nat.ne_of_gt (Nat.lt_of_succ_lt_succ inside))
          rfl
      | succ place =>
          rw [Nat.add_right_comm number]
          exact ih (Nat.lt_of_succ_lt_succ inside) found

/-! ## Outputs -/

variable (function key info)

theorem length_flatten_expandBlocks (count number : Nat) (previous : Bytes) :
    (function.expandBlocks key info count number previous).flatten.length =
      count * function.length := by
  rw [List.length_flatten, List.map_congr_left length_of_mem_expandBlocks,
    List.map_const', List.sum_replicate_nat, length_expandBlocks]

/-- An expansion to a multiple of the digest length is made of whole blocks. -/
theorem expand_mul (outputs : Nat) :
    function.expand key info (function.length * outputs) =
      (function.expandBlocks key info outputs 1 []).flatten := by
  have count : (function.length * outputs + function.length - 1) / function.length =
      outputs := by
    have positive := function.length_pos
    rw [Nat.div_eq_of_lt_le] <;> grind
  simp only [expand, count]
  apply List.take_of_length_le
  exact Nat.le_of_eq (by rw [length_flatten_expandBlocks, Nat.mul_comm])

/-- The outputs of a derivation are the blocks of its expansion. -/
theorem toList_hkdf (outputs : Nat) :
    (function.hkdf chainingKey material outputs).toList =
      function.expandBlocks (function.extract chainingKey material) [] outputs 1
        [] := by
  apply List.ext_getElem
  · rw [Vector.length_toList, length_expandBlocks]
  · intro place inside inBlocks
    rw [Vector.getElem_toList]
    simp only [hkdf, Vector.getElem_ofFn, expand_mul]
    exact Bytes.cut_flatten length_of_mem_expandBlocks
      (List.getElem?_eq_getElem inBlocks)

@[simp] theorem length_hkdf {outputs : Nat} (place : Nat) (inside : place < outputs) :
    ((function.hkdf chainingKey material outputs)[place]).length = function.length := by
  have listed : (function.hkdf chainingKey material outputs)[place] ∈
      (function.hkdf chainingKey material outputs).toList :=
    Vector.mem_toList_iff.2 (Vector.getElem_mem inside)
  rw [toList_hkdf] at listed
  exact length_of_mem_expandBlocks _ listed

/-- The first output is the first block of the expansion. -/
theorem hkdf_first (outputs : Nat) :
    (function.hkdf chainingKey material (outputs + 1))[0] =
      function.hmac (function.extract chainingKey material) [1] := by
  rw [← Vector.getElem_toList (Vector.length_toList.symm ▸ Nat.succ_pos outputs)]
  simp only [toList_hkdf, expandBlocks, List.getElem_cons_zero, List.nil_append]
  rfl

/-- Up to 255 outputs can be derived. -/
theorem hkdf?_eq_ok {outputs : Nat} (few : outputs ≤ 255) :
    function.hkdf? chainingKey material outputs =
      .ok (function.expandBlocks (function.extract chainingKey material) [] outputs 1
        []) := by
  have natural : ¬ (outputs : Int) < 0 := by omega
  have small : ¬ (Bytes.capacity 8 : Int) ≤ function.length * (outputs : Int) := by
    have bound : function.length ≤ 64 := by cases function <;> decide
    have total : function.length * outputs ≤ 64 * 255 := Nat.mul_le_mul bound few
    have room : 64 * 255 < Bytes.capacity 8 := by decide
    omega
  have allowed : ¬ (255 : Int) < outputs := by omega
  rw [hkdf?, if_neg natural, if_neg small, if_neg allowed, Int.toNat_natCast,
    toList_hkdf]

end HashFunction

/-! ## The chaining key -/

namespace SymmetricState

variable (suite : Suite) (state : SymmetricState) (secret : Bytes)

theorem ck_mixKey :
    (state.mixKey suite secret).ck =
      suite.hash.hmac (suite.hash.hmac state.ck secret) [1] :=
  HashFunction.hkdf_first ..

theorem ck_mixKeyAndHash :
    (state.mixKeyAndHash suite secret).ck =
      suite.hash.hmac (suite.hash.hmac state.ck secret) [1] :=
  HashFunction.hkdf_first ..

theorem key_first_split :
    (state.split suite).1.key =
      some ((suite.hash.hmac (suite.hash.hmac state.ck []) [1]).take keyLength) := by
  exact congrArg (fun key : Bytes => some (key.take keyLength))
    (HashFunction.hkdf_first ..)

end SymmetricState

/-- A derivation is a chain of codes.  Up to 255 outputs, it returns as many values as
were asked for, each of the length of a digest.  Under the code of the material as key,
the first is the code of the byte 1, and every other one the code of the output before
it and its own number.  Fewer outputs are the first ones of more, so that a secret leads
to the same chaining key however many outputs are taken with it, and a split starts with
the chaining key that an empty secret leads to. -/
theorem HashFunction.hkdf_is_code_chain (suite : Suite) (chainingKey material : Bytes)
    (outputs : Nat) (positive : 1 ≤ outputs) (few : outputs ≤ 255) :
    let key := suite.hash.hmac chainingKey material
    ∃ derived,
      suite.hash.hkdf? chainingKey material outputs = .ok derived ∧
      derived.length = outputs ∧
      (∀ output ∈ derived, output.length = suite.hash.length) ∧
      derived[0]? = some (suite.hash.hmac key [1]) ∧
      (∀ place previous, place + 1 < outputs → derived[place]? = some previous →
        derived[place + 1]? =
          some (suite.hash.hmac key (previous ++ [UInt8.ofNat (place + 2)]))) ∧
      (∀ fewer : Nat, fewer ≤ outputs →
        suite.hash.hkdf? chainingKey material fewer = .ok (derived.take fewer)) ∧
      ∀ state : SymmetricState, state.ck = chainingKey →
        (state.mixKey suite material).ck = suite.hash.hmac key [1] ∧
        (state.mixKeyAndHash suite material).ck = suite.hash.hmac key [1] ∧
        (material = [] →
          (state.split suite).1.key =
            some ((suite.hash.hmac key [1]).take keyLength)) := by
  intro key
  refine ⟨_, hkdf?_eq_ok _ _ _ few, ?_, length_of_mem_expandBlocks, ?_, ?_, ?_, ?_⟩
  · exact length_expandBlocks ..
  · obtain ⟨others, rfl⟩ := Nat.exists_eq_succ_of_ne_zero (Nat.ne_of_gt positive)
    rfl
  · intro place previous inside found
    have next := getElem?_expandBlocks_succ inside found
    rw [List.append_nil, Nat.add_comm 1, Nat.add_assoc] at next
    exact next
  · intro fewer le
    rw [hkdf?_eq_ok _ _ _ (Nat.le_trans le few), take_expandBlocks _ _ le]
  · rintro state rfl
    refine ⟨state.ck_mixKey suite material, state.ck_mixKeyAndHash suite material, ?_⟩
    rintro rfl
    exact state.key_first_split suite

/-- The number of the last of 255 outputs still fits into its byte. -/
theorem HashFunction.hkdf_is_code_chain_of_most :
    ∃ derived previous,
      HashFunction.sha512.hkdf? [] [7] 255 = .ok derived ∧ derived.length = 255 ∧
      derived[253]? = some previous ∧
      derived[254]? = some
        (HashFunction.sha512.hmac (HashFunction.sha512.hmac [] [7])
          (previous ++ [255])) ∧
      HashFunction.sha512.hkdf? [] [7] 2 = .ok (derived.take 2) := by
  obtain ⟨derived, returned, count, -, -, chain, fewer, -⟩ :=
    hkdf_is_code_chain { hash := .sha512 } [] [7] 255 (by decide) (by decide)
  obtain ⟨previous, found⟩ : ∃ previous, derived[253]? = some previous :=
    ⟨_, List.getElem?_eq_getElem (by rw [count]; decide)⟩
  exact ⟨derived, previous, returned, count, found,
    chain 253 previous (by decide) found, fewer 2 (by decide)⟩

end Noise
