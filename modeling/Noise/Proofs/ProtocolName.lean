import Noise.Proofs.Text.Words
import Noise.State.Symmetric

/-!
# Protocol names

A protocol name is made of a pattern name and the words for three primitives.  The
pattern name may hold anything, also the character that joins the parts; but the words
do not, so the parts are told apart from the end of the name. The name starts the
transcript: padded with zeros if it is short, and hashed otherwise.  No name ends with a
zero, so the padding keeps short names apart.
-/

namespace Noise

/-! ## Texts as bytes -/

namespace Text

variable {text other : String}

theorem ascii?_eq_ok (ascii : ∀ char ∈ text.toList, isAscii char = true) :
    ascii? text = .ok (toBytes text) := by
  rw [ascii?, List.dropWhile_eq_nil_iff.2 ascii]

theorem ofNat_toNat {char : Char} (ascii : isAscii char = true) :
    Char.ofNat (UInt8.ofNat char.toNat).toNat = char := by
  have small : char.toNat < 128 := of_decide_eq_true ascii
  rw [UInt8.toNat_ofNat_of_lt' (Nat.lt_trans small (by decide)), Char.ofNat_toNat]

/-- The characters of an ASCII text can be read off its bytes. -/
theorem map_toBytes (ascii : ∀ char ∈ text.toList, isAscii char = true) :
    (toBytes text).map (fun byte => Char.ofNat byte.toNat) = text.toList := by
  rw [toBytes, List.map_map]
  exact (List.map_congr_left fun char present => ofNat_toNat (ascii char present)).trans
    (List.map_id _)

theorem toBytes_injective (ascii : ∀ char ∈ text.toList, isAscii char = true)
    (otherAscii : ∀ char ∈ other.toList, isAscii char = true)
    (same : toBytes text = toBytes other) :
    text = other := by
  rw [← String.toList_inj, ← map_toBytes ascii, ← map_toBytes otherAscii, same]

end Text

/-! ## Padding -/

namespace Bytes

variable {bytes rest other : Bytes} {count otherCount : Nat}

/-- What is cut off a string of zeros is nothing, if it ends a string that does
not end with a zero. -/
theorem eq_nil_of_zeros (ends : (bytes ++ rest).getLast? ≠ some 0)
    (zeros : zeros count = rest ++ zeros otherCount) : rest = [] := by
  cases last : rest.getLast? with
  | none => exact List.getLast?_eq_none_iff.1 last
  | some byte =>
      have present : byte ∈ Bytes.zeros count := by
        rw [zeros]
        exact List.mem_append_left _ (List.mem_of_getLast? last)
      obtain rfl := List.eq_of_mem_replicate present
      rw [List.getLast?_append, last] at ends
      exact absurd rfl ends

/-- Zeros at the end do not make two strings equal that do not end with a zero. -/
theorem eq_of_append_zeros (ends : bytes.getLast? ≠ some 0)
    (otherEnds : other.getLast? ≠ some 0)
    (same : bytes ++ zeros count = other ++ zeros otherCount) : bytes = other := by
  rcases List.append_eq_append_iff.1 same with
    ⟨rest, rfl, padding⟩ | ⟨rest, rfl, padding⟩
  · rw [eq_nil_of_zeros otherEnds padding, List.append_nil]
  · rw [eq_nil_of_zeros ends padding, List.append_nil]

end Bytes

/-! ## The parts of a name -/

namespace Suite

variable {suite other : Suite} {pattern otherPattern : String}

theorem toList_protocolName (suite : Suite) (pattern : String) :
    (suite.protocolName pattern).toList =
      (((protocolWord ++ "_" ++ pattern).toList ++ '_' :: suite.dh.name.toList) ++
        '_' :: suite.cipher.name.toList) ++ '_' :: suite.hash.name.toList := by
  simp [protocolName]

/-- The words for the primitives do not hold the character that joins the parts. -/
theorem solid_words (suite : Suite) :
    '_' ∉ suite.dh.name.toList ∧ '_' ∉ suite.cipher.name.toList ∧
    '_' ∉ suite.hash.name.toList := by
  refine ⟨?_, ?_, ?_⟩
  · cases suite.dh <;> decide
  · cases suite.cipher <;> decide
  · cases suite.hash <;> decide

/-- Primitives are told apart by their words. -/
theorem eq_of_words (dh : suite.dh.name = other.dh.name)
    (cipher : suite.cipher.name = other.cipher.name)
    (hash : suite.hash.name = other.hash.name) : suite = other := by
  have sameDh : suite.dh = other.dh := by
    generalize suite.dh = own, other.dh = others at dh
    cases own <;> cases others <;> revert dh <;> decide
  have sameCipher : suite.cipher = other.cipher := by
    generalize suite.cipher = own, other.cipher = others at cipher
    cases own <;> cases others <;> revert cipher <;> decide
  have sameHash : suite.hash = other.hash := by
    generalize suite.hash = own, other.hash = others at hash
    cases own <;> cases others <;> revert hash <;> decide
  cases suite
  cases other
  exact (Suite.mk.injEq ..).mpr ⟨sameDh, sameCipher, sameHash⟩

/-- A protocol name determines the pattern name and the suite.  Its parts are cut off
from the end, where the pattern name cannot be mistaken for a word. -/
theorem protocolName_injective
    (same : suite.protocolName pattern = other.protocolName otherPattern) :
    pattern = otherPattern ∧ suite = other := by
  rw [← String.toList_inj, toList_protocolName, toList_protocolName] at same
  obtain ⟨solidDh, solidCipher, solidHash⟩ := suite.solid_words
  obtain ⟨otherDh, otherCipher, otherHash⟩ := other.solid_words
  obtain ⟨same, hash⟩ := Text.cut_at_last solidHash otherHash same
  obtain ⟨same, cipher⟩ := Text.cut_at_last solidCipher otherCipher same
  obtain ⟨same, dh⟩ := Text.cut_at_last solidDh otherDh same
  rw [String.toList_inj] at hash cipher dh
  simp only [String.toList_append] at same
  exact ⟨String.toList_inj.1 (List.append_cancel_left same), eq_of_words dh cipher hash⟩

/-- An ASCII pattern name makes an ASCII protocol name. -/
theorem isAscii_protocolName (suite : Suite)
    (ascii : ∀ char ∈ pattern.toList, Text.isAscii char = true) :
    ∀ char ∈ (suite.protocolName pattern).toList, Text.isAscii char = true := by
  intro char present
  simp only [protocolName, String.toList_append, List.mem_append] at present
  have word : protocolWord.toList.all Text.isAscii = true := by decide
  have separator : "_".toList.all Text.isAscii = true := by decide
  have dh : suite.dh.name.toList.all Text.isAscii = true := by cases suite.dh <;> decide
  have cipher : suite.cipher.name.toList.all Text.isAscii = true := by
    cases suite.cipher <;> decide
  have hash : suite.hash.name.toList.all Text.isAscii = true := by
    cases suite.hash <;> decide
  rw [List.all_eq_true] at word separator dh cipher hash
  grind

/-- No protocol name ends with a zero. -/
theorem getLast?_protocolName (suite : Suite) (pattern : String) :
    (Text.toBytes (suite.protocolName pattern)).getLast? ≠ some 0 := by
  obtain ⟨byte, last, nonzero⟩ : ∃ byte,
      (('_' :: suite.hash.name.toList).map fun char =>
        UInt8.ofNat char.toNat).getLast? = some byte ∧ byte ≠ 0 := by
    cases suite.hash <;> exact ⟨_, rfl, by decide⟩
  rw [Text.toBytes, toList_protocolName, List.map_append, List.getLast?_append, last]
  exact fun ends => nonzero (Option.some.inj ends)

end Suite

/-! ## The start of a transcript -/

namespace SymmetricState

variable {suite other : Suite} {name otherName : Bytes}

theorem h_start (suite : Suite) (name : Bytes) :
    (start suite name).h = nameHash suite name := rfl

theorem ck_start (suite : Suite) (name : Bytes) :
    (start suite name).ck = nameHash suite name := rfl

theorem nameHash_of_short (short : name.length ≤ suite.hash.length) :
    nameHash suite name = name ++ Bytes.zeros (suite.hash.length - name.length) :=
  if_pos short

theorem nameHash_of_long (long : suite.hash.length < name.length) :
    nameHash suite name = suite.hash.digest name :=
  if_neg (Nat.not_le.2 long)

end SymmetricState

/-- Different protocols start different transcripts.  Two ASCII pattern names with two
suites, unless both are the same, make different protocol names, whatever the pattern
names hold.  If neither name is longer than a digest, the transcripts start with
different hashes and chaining keys; and if both are longer, with one hash function, a
common start is a collision of that function. -/
theorem SymmetricState.names_separate_transcripts {suite other : Suite}
    {pattern otherPattern : String}
    (ascii : ∀ char ∈ pattern.toList, Text.isAscii char = true)
    (otherAscii : ∀ char ∈ otherPattern.toList, Text.isAscii char = true)
    (distinct : (pattern, suite) ≠ (otherPattern, other)) :
    let name := Text.toBytes (suite.protocolName pattern)
    let otherName := Text.toBytes (other.protocolName otherPattern)
    Text.ascii? (suite.protocolName pattern) = .ok name ∧
    Text.ascii? (other.protocolName otherPattern) = .ok otherName ∧
    name ≠ otherName ∧
    (name.length ≤ suite.hash.length → otherName.length ≤ other.hash.length →
      (start suite name).h ≠ (start other otherName).h ∧
      (start suite name).ck ≠ (start other otherName).ck) ∧
    (suite.hash = other.hash → suite.hash.length < name.length →
      other.hash.length < otherName.length →
      (start suite name).h = (start other otherName).h ∨
      (start suite name).ck = (start other otherName).ck →
      suite.hash.digest name = suite.hash.digest otherName) := by
  intro name otherName
  have isAscii := suite.isAscii_protocolName ascii
  have otherIsAscii := other.isAscii_protocolName otherAscii
  have different : name ≠ otherName := by
    intro same
    obtain ⟨samePattern, sameSuite⟩ :=
      Suite.protocolName_injective (Text.toBytes_injective isAscii otherIsAscii same)
    exact distinct (Prod.ext samePattern sameSuite)
  refine ⟨Text.ascii?_eq_ok isAscii, Text.ascii?_eq_ok otherIsAscii, different, ?_, ?_⟩
  · intro short otherShort
    rw [h_start, h_start, ck_start, ck_start, and_self, nameHash_of_short short,
      nameHash_of_short otherShort]
    intro same
    exact different
      (Bytes.eq_of_append_zeros (suite.getLast?_protocolName pattern)
        (other.getLast?_protocolName otherPattern) same)
  · intro function long otherLong started
    rw [h_start, h_start, ck_start, ck_start, or_self, nameHash_of_long long,
      nameHash_of_long otherLong, ← function] at started
    exact started

/-- A pattern name may hold zeros and the words of a suite. -/
theorem SymmetricState.names_separate_transcripts_of_words :
    let suite : Suite := { hash := .sha512 }
    let other : Suite := { hash := .blake2b }
    let pattern := "N_25519_ChaChaPoly_BLAKE2b\x00"
    Text.isAscii '\x00' = true ∧ (pattern, suite) ≠ ("N", other) ∧
    (start suite (Text.toBytes (suite.protocolName pattern))).h ≠
      (start other (Text.toBytes (other.protocolName "N"))).h := by
  intro suite other pattern
  have ascii : ∀ char ∈ pattern.toList, Text.isAscii char = true :=
    List.all_eq_true.1 (by decide : pattern.toList.all Text.isAscii = true)
  have otherAscii : ∀ char ∈ "N".toList, Text.isAscii char = true :=
    List.all_eq_true.1 (by decide : "N".toList.all Text.isAscii = true)
  have distinct : (pattern, suite) ≠ ("N", other) := by
    intro same
    cases congrArg (·.2.hash) same
  obtain ⟨-, -, -, short, -⟩ := names_separate_transcripts ascii otherAscii distinct
  exact ⟨by decide, distinct, (short (by decide) (by decide)).1⟩

end Noise
