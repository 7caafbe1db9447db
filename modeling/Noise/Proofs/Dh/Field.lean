import Mathlib.Data.List.Prime
import Mathlib.NumberTheory.LucasPrimality
import Mathlib.Tactic.NormNum.Prime
import Noise.Dh.Function

/-!
# The fields of the Diffie-Hellman functions

Field elements are numbers below a prime, and every operation reduces its result.  Read
in a ring whose characteristic is that prime, the operations are those of the ring.
Both primes are certified by Lucas's test, computed with the same repeated squaring that
inverts field elements.
-/

namespace Noise.Curve

variable {curve : Curve}

/-! ## Scanning a number bit by bit -/

/-- Taking in the next lower bit of a number. -/
theorem shiftRight_eq_double_add (value count : Nat) :
    value >>> count = 2 * value >>> (count + 1) + (value.testBit count).toNat := by
  have half := Nat.div_add_mod (value >>> count) 2
  have bit : (value.testBit count).toNat = value >>> count % 2 := by
    rw [Nat.testBit_eq_decide_div_mod_eq, Nat.shiftRight_eq_div_pow]
    rcases Nat.mod_two_eq_zero_or_one (value / 2 ^ count) with even | odd
    · simp [even]
    · simp [odd]
  rw [Nat.shiftRight_succ, bit]
  exact half.symm

/-- What holds of the leading bits, and is kept when the next bit is taken in, holds
of the whole number. -/
theorem foldl_bitsOf {σ : Type} (holds : Nat → σ → Prop) (step : σ → Bool → σ)
    (advance : ∀ leading state bit, holds leading state →
      holds (2 * leading + bit.toNat) (step state bit))
    (value : Nat) : ∀ (count : Nat) (state : σ), holds (value >>> count) state →
      holds value ((bitsOf value count).foldl step state) := by
  intro count
  induction count with
  | zero =>
      intro state start
      simpa [bitsOf] using start
  | succ count ih =>
      intro state start
      rw [bitsOf, List.foldl_cons]
      apply ih
      rw [shiftRight_eq_double_add]
      exact advance _ _ _ start

/-! ## The operations in a ring of the curve's characteristic -/

section Ring

variable {R : Type*} [CommRing R] [CharP R curve.prime]

/-- Reduction does not change the ring element. -/
theorem cast_mod (value : Nat) : ((value % curve.prime : Nat) : R) = value :=
  (CharP.cast_eq_mod R curve.prime value).symm

@[simp] theorem cast_add (left right : Nat) :
    (curve.add left right : R) = left + right := by
  rw [add, cast_mod, Nat.cast_add]

@[simp] theorem cast_mul (left right : Nat) :
    (curve.mul left right : R) = left * right := by
  rw [mul, cast_mod, Nat.cast_mul]

/-- A difference is taken of reduced elements only. -/
theorem cast_sub (left : Nat) {right : Nat} (reduced : right ≤ curve.prime) :
    (curve.sub left right : R) = left - right := by
  rw [sub, cast_mod, Nat.cast_add, Nat.cast_sub reduced,
    CharP.cast_eq_zero R curve.prime]
  ring

/-- Repeated squaring gives the power, for exponents of the curve's number of bits. -/
theorem cast_pow (value : Nat) {exponent : Nat} (short : exponent < 1 <<< curve.bits) :
    (curve.pow value exponent : R) = (value : R) ^ exponent := by
  apply foldl_bitsOf (fun leading power => ((power : Nat) : R) = (value : R) ^ leading)
  · intro leading power bit held
    cases bit with
    | false => simp [held, ← pow_add, two_mul]
    | true => simp [held, ← pow_add, ← pow_succ, two_mul]
  · rw [Nat.one_shiftLeft] at short
    simp [Nat.shiftRight_eq_div_pow, Nat.div_eq_of_lt short]

end Ring

/-! ## Certified primes -/

/-- A claim that a number is prime, with what Lucas's test needs: a number whose powers
are to run through all residues, and the prime factors of the number's predecessor. -/
structure Certificate where
  number : Nat
  witness : Nat
  factors : List Nat

/-- The power of a number up to a modulus, by the arithmetic of a curve with
that modulus. -/
def powerModulo (modulus value exponent : Nat) : Nat :=
  { x25519 with prime := modulus, bits := modulus.log2 + 1 }.pow value exponent
    % modulus

theorem powerModulo_eq_one_iff {modulus exponent : Nat} (large : 1 < modulus)
    (short : exponent < modulus) (value : Nat) :
    powerModulo modulus value exponent = 1 ↔ (value : ZMod modulus) ^ exponent = 1 := by
  let arithmetic : Curve := { x25519 with prime := modulus, bits := modulus.log2 + 1 }
  have : CharP (ZMod modulus) arithmetic.prime := ZMod.charP modulus
  have covered : exponent < 1 <<< arithmetic.bits := by
    rw [Nat.one_shiftLeft]
    exact short.trans Nat.lt_log2_self
  have power : (arithmetic.pow value exponent : ZMod modulus) =
      (value : ZMod modulus) ^ exponent :=
    cast_pow value covered
  have residue := ZMod.natCast_eq_natCast_iff' (arithmetic.pow value exponent) 1 modulus
  rw [Nat.cast_one, Nat.mod_eq_of_lt large] at residue
  rw [← power, residue]
  rfl

namespace Certificate

/-- Whether the certificate passes Lucas's test, given numbers that are known
to be prime. -/
def passes (known : List Nat) (certificate : Certificate) : Bool :=
  let predecessor := certificate.number - 1
  certificate.factors.all known.contains && certificate.factors.prod == predecessor &&
    decide (1 < certificate.number) &&
    powerModulo certificate.number certificate.witness predecessor == 1 &&
    certificate.factors.all fun factor =>
      powerModulo certificate.number certificate.witness (predecessor / factor) != 1

/-- A certificate that passes is right. -/
theorem prime_of_passes {known : List Nat} {certificate : Certificate}
    (primes : ∀ number ∈ known, number.Prime)
    (passed : certificate.passes known = true) :
    certificate.number.Prime := by
  simp only [passes, Bool.and_eq_true, List.all_eq_true, List.contains_iff_mem,
    beq_iff_eq, decide_eq_true_eq, bne_iff_ne] at passed
  obtain ⟨⟨⟨⟨listed, product⟩, large⟩, full⟩, proper⟩ := passed
  have short : certificate.number - 1 < certificate.number := by omega
  apply lucas_primality _ (certificate.witness : ZMod certificate.number)
  · exact (powerModulo_eq_one_iff large short _).1 full
  · intro factor factorPrime divides
    rw [← product, Prime.dvd_prod_iff factorPrime.prime] at divides
    obtain ⟨candidate, member, divides⟩ := divides
    have equal : factor = candidate :=
      (Nat.prime_dvd_prime_iff_eq factorPrime (primes _ (listed _ member))).1 divides
    subst equal
    intro trivialPower
    have smaller := (Nat.div_le_self (certificate.number - 1) factor).trans_lt short
    exact proper factor member ((powerModulo_eq_one_iff large smaller _).2 trivialPower)

/-- Whether all certificates pass, each given the numbers before it. -/
def passAll : (known : List Nat) → List Certificate → Bool
  | _, [] => true
  | known, certificate :: rest =>
      certificate.passes known && passAll (certificate.number :: known) rest

theorem prime_of_passAll {certificates : List Certificate} : ∀ {known : List Nat},
    (∀ number ∈ known, number.Prime) → passAll known certificates = true →
      ∀ certificate ∈ certificates, certificate.number.Prime := by
  induction certificates with
  | nil => simp
  | cons certificate rest ih =>
      intro known primes passed
      simp only [passAll, Bool.and_eq_true] at passed
      have first := prime_of_passes primes passed.1
      have others := ih (List.forall_mem_cons.2 ⟨first, primes⟩) passed.2
      exact List.forall_mem_cons.2 ⟨first, others⟩

end Certificate

/-- The small primes that the certificates start from. -/
def smallPrimes : List Nat :=
  [2, 3, 5, 7, 13, 19, 23, 31, 37, 43, 47, 59, 61, 67, 103, 107, 109, 127, 137, 151,
   197, 223, 271, 353, 443, 463, 593, 641, 991, 2437, 2531, 2683, 2963, 3727, 4153,
   6197, 17449, 18287, 57467, 65147, 75707, 116989, 132049, 196687, 217003, 379979,
   411743, 430751, 569003]

theorem prime_of_mem_smallPrimes : ∀ number ∈ smallPrimes, number.Prime := by
  simp only [smallPrimes, List.forall_mem_cons]
  norm_num

/-- The certificate of a field's prime. -/
def fieldCertificate : DhFunction → Certificate
  | .curve25519 => ⟨x25519.prime, 2,
      [2, 2, 3, 65147,
       74058212732561358302231226437062788676166966415465897661863160754340907]⟩
  | .curve448 => ⟨x448.prime, 7,
      [2, 641, 18287, 196687, 1466449, 2916841, 6700417, 1469495262398780123809,
       167773885276849215533569, 596242599987116128415063,
       37414057161322375957408148834323969]⟩

/-- The certificates that lead to the two field primes, which stand last. -/
def certificates : List Certificate :=
  [⟨8574133, 2, [2, 2, 3, 7, 103, 991]⟩,
   ⟨1923133, 2, [2, 2, 3, 43, 3727]⟩,
   ⟨2773320623, 5, [2, 2437, 569003]⟩,
   ⟨72106336199, 7, [2, 13, 2773320623]⟩,
   ⟨1919519569386763, 2, [2, 3, 7, 19, 47, 47, 127, 8574133]⟩,
   ⟨31757755568855353, 10, [2, 2, 2, 3, 31, 107, 223, 4153, 430751]⟩,
   ⟨75445702479781427272750846543864801, 7,
    [2, 2, 2, 2, 2, 3, 3, 5, 5, 75707, 72106336199, 1919519569386763]⟩,
   ⟨74058212732561358302231226437062788676166966415465897661863160754340907, 2,
    [2, 3, 353, 57467, 132049, 1923133, 31757755568855353,
     75445702479781427272750846543864801]⟩,
   ⟨1466449, 7, [2, 2, 2, 2, 3, 137, 223]⟩,
   ⟨1609403, 2, [2, 23, 59, 593]⟩,
   ⟨2916841, 13, [2, 2, 2, 3, 5, 109, 223]⟩,
   ⟨6700417, 5, [2, 2, 2, 2, 2, 2, 2, 3, 17449]⟩,
   ⟨36753053, 2, [2, 2, 7, 443, 2963]⟩,
   ⟨1255525949, 2, [2, 2, 2683, 116989]⟩,
   ⟨1335912079, 6, [2, 3, 19, 31, 61, 6197]⟩,
   ⟨1764234391, 3, [2, 3, 5, 271, 217003]⟩,
   ⟨3402277943, 5, [2, 7, 151, 1609403]⟩,
   ⟨32061889897, 10, [2, 2, 2, 3, 1335912079]⟩,
   ⟨25136521679249, 3, [2, 2, 2, 2, 7, 7, 32061889897]⟩,
   ⟨97859369123353, 5, [2, 2, 2, 3, 3, 67, 197, 271, 379979]⟩,
   ⟨34741861125639557, 13, [2, 2, 7, 7, 7, 31, 463, 1764234391]⟩,
   ⟨36131535570665139281, 3, [2, 2, 2, 2, 5, 13, 34741861125639557]⟩,
   ⟨1469495262398780123809, 17, [2, 2, 2, 2, 2, 3, 7, 7, 223, 411743, 3402277943]⟩,
   ⟨167773885276849215533569, 17,
    [2, 2, 2, 2, 2, 2, 2, 2, 2, 3, 3, 3, 7, 7, 2531, 97859369123353]⟩,
   ⟨596242599987116128415063, 5, [2, 37, 223, 36131535570665139281]⟩,
   ⟨37414057161322375957408148834323969, 23,
    [2, 2, 2, 2, 2, 2, 2, 2, 2, 3, 3, 7, 36753053, 1255525949, 25136521679249]⟩,
   fieldCertificate .curve25519, fieldCertificate .curve448]

theorem passAll_certificates : Certificate.passAll smallPrimes certificates = true := by
  decide +kernel

/-- The number of elements of either field is prime. -/
theorem prime_of_dhFunction (function : DhFunction) : function.curve.prime.Prime := by
  have primes :=
    Certificate.prime_of_passAll prime_of_mem_smallPrimes passAll_certificates
  have listed : fieldCertificate function ∈ certificates := by
    cases function <;> simp [certificates]
  have certified := primes _ listed
  cases function <;> exact certified

end Noise.Curve
