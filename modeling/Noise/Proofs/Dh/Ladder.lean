import Mathlib.FieldTheory.Finite.Basic
import Mathlib.FieldTheory.IsAlgClosed.AlgebraicClosure
import Noise.Dh.KeyPair
import Noise.Proofs.Dh.Field
import Noise.Proofs.Dh.MontgomeryGroup

/-!
# The ladder computes multiples

Over an algebraic closure of the field every number is the first coordinate of a point.
The ladder keeps representatives of two neighbouring multiples of that point, so that
its result is the first coordinate of a multiple.  Multiples of multiples do not depend
on the order, and hence neither does an agreed secret.
-/

namespace Noise.DhFunction

open Montgomery

variable (function : DhFunction)

instance : Fact function.curve.prime.Prime := ⟨Curve.prime_of_dhFunction function⟩

/-- A field in which every element is a first coordinate. -/
abbrev Closure : Type := AlgebraicClosure (ZMod function.curve.prime)

noncomputable instance : DecidableEq function.Closure := Classical.typeDecidableEq _

/-- The group that the function computes in. -/
noncomputable abbrev group : WeierstrassCurve.Affine function.Closure :=
  weierstrass (function.curve.coefficient : function.Closure)

theorem cast_ne_zero {value : Nat} (positive : 0 < value)
    (small : value < function.curve.prime) :
    (value : function.Closure) ≠ 0 := by
  intro zero
  have divides :=
    (CharP.cast_eq_zero_iff function.Closure function.curve.prime value).1 zero
  have bounded := Nat.le_of_dvd positive divides
  omega

theorem regular : Regular (function.curve.coefficient : function.Closure) where
  two_ne_zero := by
    have two := function.cast_ne_zero (by decide : 0 < 2) (by cases function <;> decide)
    exact_mod_cast two
  ne_zero :=
    function.cast_ne_zero (by cases function <;> decide) (by cases function <;> decide)
  add_one_ne_zero := by
    have successor := function.cast_ne_zero (Nat.succ_pos function.curve.coefficient)
      (by cases function <;> decide)
    exact_mod_cast successor

/-- Every element is the first coordinate of a point. -/
theorem exists_firstCoordinate (u : function.Closure) :
    ∃ point : function.group.Point, firstCoordinate point = u := by
  obtain ⟨v, square⟩ := IsAlgClosed.exists_pow_nat_eq
    (u ^ 3 + (4 * (function.curve.coefficient : function.Closure) + 2) * u ^ 2 + u)
    (by decide : 0 < 2)
  exact ⟨.some u v (function.regular.nonsingular (equation_iff.2 square)), rfl⟩

/-- A point with first coordinate zero is infinity or of order two. -/
theorem add_self_of_firstCoordinate {point : function.group.Point}
    (zero : firstCoordinate point = 0) :
    point + point = 0 := by
  cases point with
  | zero => exact add_zero _
  | some u v nonsingular =>
      have equation := equation_iff.1 nonsingular.1
      rw [firstCoordinate_some] at zero
      subst zero
      have flat : v = 0 := by simpa using equation
      apply add_self_of_flat
      rw [flat, mul_zero]

theorem even_nsmul_of_firstCoordinate {point : function.group.Point}
    (zero : firstCoordinate point = 0) {count : Nat} (even : Even count) :
    count • point = 0 := by
  obtain ⟨half, rfl⟩ := even
  rw [← two_mul, Nat.mul_comm, mul_nsmul', two_nsmul,
    function.add_self_of_firstCoordinate zero, nsmul_zero]

/-- An even multiple of a point with first coordinate zero has first
coordinate zero again. -/
theorem firstCoordinate_even_nsmul {point : function.group.Point}
    (zero : firstCoordinate point = 0) {count : Nat} (even : Even count) :
    firstCoordinate (count • point) = 0 := by
  rw [function.even_nsmul_of_firstCoordinate zero even]
  rfl

end Noise.DhFunction

namespace Noise.Curve

open Montgomery

variable {function : DhFunction}

/-! ## The formulas on numbers -/

/-- A fraction of numbers that represents a point. -/
structure Stands (fraction : Point) (point : function.group.Point) : Prop where
  reduced : fraction.z ≤ function.curve.prime
  represents : Represents point (fraction.x : function.Closure) fraction.z

theorem mul_le_prime (left right : Nat) :
    function.curve.mul left right ≤ function.curve.prime :=
  (Nat.mod_lt _ (prime_of_dhFunction function).pos).le

/-- The fraction for twice a point. -/
theorem Stands.double {fraction : Point} {point : function.group.Point}
    (stands : Stands fraction point) :
    Stands (function.curve.double fraction) (point + point) where
  reduced := mul_le_prime _ _
  represents := by
    have doubled := stands.represents.double function.regular
    simpa only [Curve.double, cast_mul, cast_add, cast_sub _ stands.reduced,
      cast_sub _ (mul_le_prime _ _), ← pow_two] using doubled

/-- The fraction for a sum at a known difference. -/
theorem Stands.add {left right : Point} {first second step : function.group.Point}
    {u : Nat} (leftStands : Stands left first) (rightStands : Stands right second)
    (apart : second = first + step)
    (coordinate : (u : function.Closure) = firstCoordinate step)
    (nonzero : (u : function.Closure) ≠ 0) :
    Stands (function.curve.addPoints u left right) (first + second) where
  reduced := mul_le_prime _ _
  represents := by
    have sum := leftStands.represents.add function.regular rightStands.represents apart
      (coordinate ▸ nonzero)
    rw [← coordinate] at sum
    simpa only [addPoints, cast_mul, cast_add, cast_sub _ leftStands.reduced,
      cast_sub _ rightStands.reduced, cast_sub _ (mul_le_prime _ _),
      ← pow_two] using sum

/-! ## The ladder -/

/-- The state of the ladder: the multiples of a point by a number and by the
next one. -/
def Neighbours (point : function.group.Point) (count : Nat)
    (pair : Point × Point) : Prop :=
  Stands pair.1 (count • point) ∧ Stands pair.2 ((count + 1) • point)

/-- A step of the ladder takes in one bit of the scalar. -/
theorem Neighbours.ladderStep {point : function.group.Point} {u : Nat}
    (coordinate : (u : function.Closure) = firstCoordinate point)
    (nonzero : (u : function.Closure) ≠ 0) {count : Nat} {pair : Point × Point}
    {bit : Bool} (neighbours : Neighbours point count pair) :
    Neighbours point (2 * count + bit.toNat)
      (function.curve.ladderStep u pair bit) := by
  obtain ⟨lower, upper⟩ := neighbours
  have sum := lower.add upper (succ_nsmul point count) coordinate nonzero
  rw [← add_nsmul] at sum
  cases bit with
  | false =>
      have twice := lower.double
      rw [← add_nsmul] at twice
      have low : 2 * count + false.toNat = count + count := by simp; omega
      rw [low]
      exact ⟨twice, sum⟩
  | true =>
      have twice := upper.double
      rw [← add_nsmul] at twice
      have low : 2 * count + true.toNat = count + (count + 1) := by simp; omega
      have high : count + (count + 1) + 1 = count + 1 + (count + 1) := by omega
      rw [low, Neighbours, high]
      exact ⟨sum, twice⟩

/-- The power that stands for an inverse. -/
theorem cast_pow_prime_sub_two (value : Nat) :
    (function.curve.pow value (function.curve.prime - 2) : function.Closure) =
      (value : function.Closure)⁻¹ := by
  have short : function.curve.prime - 2 < 1 <<< function.curve.bits := by
    cases function <;> decide
  have exponent : function.curve.prime - 2 ≠ 0 := by
    cases function <;> decide
  rw [cast_pow value short]
  by_cases zero : (value : function.Closure) = 0
  · rw [zero, zero_pow exponent, inv_zero]
  · apply eq_inv_of_mul_eq_one_left
    have residue : (value : ZMod function.curve.prime) ≠ 0 := by
      intro vanishes
      apply zero
      rw [← map_natCast (algebraMap (ZMod function.curve.prime) function.Closure),
        vanishes, map_zero]
    have fermat := congrArg (algebraMap (ZMod function.curve.prime) function.Closure)
      (ZMod.pow_card_sub_one_eq_one residue)
    have split : function.curve.prime - 1 = function.curve.prime - 2 + 1 := by omega
    rwa [map_pow, map_natCast, map_one, split, pow_succ] at fermat

/-- At the coordinate zero the ladder never leaves the denominator zero. -/
theorem multiply_of_cast_eq_zero {scalar u : Nat} (zero : (u : function.Closure) = 0) :
    (function.curve.multiply scalar u : function.Closure) = 0 := by
  have denominator := foldl_bitsOf
    (fun _ (pair : Point × Point) =>
      pair.1.z ≤ function.curve.prime ∧ (pair.1.z : function.Closure) = 0)
    (function.curve.ladderStep u)
    (by
      intro leading pair bit held
      obtain ⟨reduced, vanishes⟩ := held
      cases bit with
      | false =>
          refine ⟨mul_le_prime _ _, ?_⟩
          simp [ladderStep, double, cast_sub _ reduced, cast_sub _ (mul_le_prime _ _),
            vanishes]
      | true =>
          refine ⟨mul_le_prime _ _, ?_⟩
          simp [ladderStep, addPoints, zero])
    scalar function.curve.bits (⟨1, 0⟩, ⟨u, 1⟩) (by simp)
  rw [multiply, cast_mul, cast_pow_prime_sub_two, denominator.2, inv_zero, mul_zero]

/-- The ladder gives the first coordinate of a multiple. -/
theorem cast_multiply {scalar u : Nat} {point : function.group.Point}
    (short : scalar < 1 <<< function.curve.bits) (even : Even scalar)
    (coordinate : (u : function.Closure) = firstCoordinate point) :
    (function.curve.multiply scalar u : function.Closure) =
      firstCoordinate (scalar • point) := by
  by_cases zero : (u : function.Closure) = 0
  · rw [multiply_of_cast_eq_zero zero,
      function.firstCoordinate_even_nsmul (coordinate.symm.trans zero) even]
  · have finite : point ≠ 0 := by
      rintro rfl
      exact zero coordinate
    have none : scalar >>> function.curve.bits = 0 := by
      rw [Nat.shiftRight_eq_div_pow]
      rw [Nat.one_shiftLeft] at short
      exact Nat.div_eq_of_lt short
    have start :
        Neighbours point (scalar >>> function.curve.bits) (⟨1, 0⟩, ⟨u, 1⟩) := by
      rw [none, Neighbours, zero_nsmul, zero_add, one_nsmul]
      refine ⟨⟨Nat.zero_le _, ?_⟩, ⟨(prime_of_dhFunction function).one_le, ?_⟩⟩
      · rw [represents_zero]
        simp
      · rw [represents_iff finite]
        simp [coordinate]
    have reached := foldl_bitsOf (Neighbours point) (function.curve.ladderStep u)
      (fun _ _ _ neighbours => neighbours.ladderStep coordinate zero) scalar
        function.curve.bits _ start
    rw [multiply, cast_mul, cast_pow_prime_sub_two, ← div_eq_mul_inv]
    exact reached.1.represents.div_eq

/-- A product of the ladder is a reduced number. -/
theorem multiply_lt_prime (scalar u : Nat) :
    function.curve.multiply scalar u < function.curve.prime :=
  Nat.mod_lt _ (prime_of_dhFunction function).pos

/-- The order of two multiplications does not matter. -/
theorem multiply_comm {left right : Nat} (leftShort : left < 1 <<< function.curve.bits)
    (rightShort : right < 1 <<< function.curve.bits) (leftEven : Even left)
    (rightEven : Even right) (u : Nat) :
    function.curve.multiply left (function.curve.multiply right u) =
      function.curve.multiply right (function.curve.multiply left u) := by
  obtain ⟨point, coordinate⟩ := function.exists_firstCoordinate (u : function.Closure)
  have first := cast_multiply leftShort leftEven
    (cast_multiply rightShort rightEven coordinate.symm)
  have second := cast_multiply rightShort rightEven
    (cast_multiply leftShort leftEven coordinate.symm)
  rw [← mul_nsmul] at first second
  rw [Nat.mul_comm, ← second] at first
  have congruent :=
    (CharP.natCast_eq_natCast function.Closure function.curve.prime).1 first
  rwa [Nat.ModEq, Nat.mod_eq_of_lt (multiply_lt_prime _ _),
    Nat.mod_eq_of_lt (multiply_lt_prime _ _)] at congruent

/-! ## Scalars and encodings -/

/-- A scalar has the curve's number of bits. -/
theorem scalar_lt (privateKey : Bytes) :
    function.curve.scalar privateKey < 1 <<< function.curve.bits := by
  have positive : 0 < function.curve.bits := by
    cases function <;> decide
  have double : 1 <<< function.curve.bits =
      1 <<< (function.curve.bits - 1) + 1 <<< (function.curve.bits - 1) := by
    cases function <;> decide
  have reduced :=
    Nat.mod_lt (privateKey.toNatLE / function.curve.cofactor * function.curve.cofactor)
      (by cases function <;> decide : 0 < 1 <<< (function.curve.bits - 1))
  rw [scalar, double]
  omega

theorem cofactor_even : Even function.curve.cofactor := by
  cases function <;> decide

/-- A scalar is a multiple of the cofactor. -/
theorem cofactor_dvd_scalar (privateKey : Bytes) :
    function.curve.cofactor ∣ function.curve.scalar privateKey := by
  have top : function.curve.cofactor ∣ 1 <<< (function.curve.bits - 1) := by
    cases function <;> decide
  rw [scalar]
  exact Nat.dvd_add ((Nat.dvd_mod_iff top).2 (Nat.dvd_mul_left ..)) top

theorem scalar_even (privateKey : Bytes) : Even (function.curve.scalar privateKey) :=
  even_iff_two_dvd.2 ((even_iff_two_dvd.1 cofactor_even).trans
    (cofactor_dvd_scalar privateKey))

/-- Decoding gives back an encoded field element. -/
theorem coordinate_ofNatLE {value : Nat} (reduced : value < function.curve.prime) :
    function.curve.coordinate (Bytes.ofNatLE function.curve.keyLength value) =
      value := by
  have fits : function.curve.prime ≤ Bytes.capacity function.curve.keyLength := by
    cases function <;> decide
  have short : function.curve.prime ≤ 1 <<< function.curve.bits := by
    cases function <;> decide
  rw [coordinate, Bytes.toNatLE_ofNatLE, Nat.mod_eq_of_lt (reduced.trans_le fits),
    Nat.mod_eq_of_lt (reduced.trans_le short), Nat.mod_eq_of_lt reduced]

end Noise.Curve

namespace Noise

/-! ## Keys of low order -/

/-- Whether a public key is the first coordinate of a point whose order
divides the cofactor. -/
def DhFunction.HasLowOrder (function : DhFunction) (publicKey : Bytes) : Prop :=
  ∃ point : function.group.Point,
    (function.curve.coordinate publicKey : function.Closure) =
      Montgomery.firstCoordinate point ∧
      function.curve.cofactor • point = 0

theorem Bytes.isZero_ofNatLE_zero (count : Nat) : (Bytes.ofNatLE count 0).isZero := by
  induction count with
  | zero => rfl
  | succ count ih => exact ih

/-- With a key of low order every shared secret is zero. -/
theorem DhFunction.HasLowOrder.isZero_sharedSecret {function : DhFunction}
    {publicKey : Bytes} (lowOrder : function.HasLowOrder publicKey)
    (privateKey : Bytes) :
    (function.sharedSecret privateKey publicKey).isZero := by
  obtain ⟨point, coordinate, vanishes⟩ := lowOrder
  have infinity : function.curve.scalar privateKey • point = 0 := by
    obtain ⟨factor, multiple⟩ :
        function.curve.cofactor ∣ function.curve.scalar privateKey :=
      Curve.cofactor_dvd_scalar privateKey
    rw [multiple, mul_nsmul, vanishes, nsmul_zero]
  have product :=
    Curve.cast_multiply (Curve.scalar_lt privateKey)
      (Curve.scalar_even privateKey) coordinate
  rw [infinity] at product
  have divides :=
    (CharP.cast_eq_zero_iff function.Closure function.curve.prime _).1 product
  rw [sharedSecret, Curve.scalarMult,
    Nat.eq_zero_of_dvd_of_lt divides (Curve.multiply_lt_prime _ _)]
  exact Bytes.isZero_ofNatLE_zero _

theorem DhFunction.hasLowOrder_of_coordinate {function : DhFunction} {publicKey : Bytes}
    (zero : function.curve.coordinate publicKey = 0) :
    function.HasLowOrder publicKey := by
  obtain ⟨point, coordinate⟩ := function.exists_firstCoordinate 0
  refine ⟨point, ?_,
    function.even_nsmul_of_firstCoordinate coordinate Curve.cofactor_even⟩
  rw [zero, Nat.cast_zero, coordinate]

/-- A key of the wrong length or of low order is refused. -/
theorem KeyPair.agree_eq_error {pair : KeyPair} {key : Bytes}
    (bad : key.length ≠ pair.dh.keyLength ∨ pair.dh.HasLowOrder key) :
    ∃ error, pair.agree key = .error error := by
  by_cases length : key.length = pair.dh.keyLength
  · have zero :=
      (bad.resolve_left (not_not_intro length)).isZero_sharedSecret
        pair.privateKey.bytes
    exact ⟨_, (if_neg (not_not_intro length)).trans (if_pos zero)⟩
  · exact ⟨_, if_pos length⟩

/-! ## Agreement -/

/-- Two private keys share one secret. -/
theorem DhFunction.sharedSecret_comm (function : DhFunction) (left right : Bytes) :
    function.sharedSecret left (function.publicKey right) =
      function.sharedSecret right (function.publicKey left) := by
  have decoded (privateKey : Bytes) :
      function.curve.coordinate (function.publicKey privateKey) =
        function.curve.multiply (function.curve.scalar privateKey)
          function.curve.base :=
    Curve.coordinate_ofNatLE (Curve.multiply_lt_prime _ _)
  rw [sharedSecret, sharedSecret, decoded, decoded, Curve.scalarMult, Curve.scalarMult,
    Curve.multiply_comm (Curve.scalar_lt left) (Curve.scalar_lt right)
      (Curve.scalar_even left) (Curve.scalar_even right)]

/-- Two key pairs of one function agree on a secret, or both refuse it. -/
theorem KeyPair.agree_comm {left right : KeyPair} (sameFunction : left.dh = right.dh) :
    left.agree right.publicKey = right.agree left.publicKey := by
  obtain ⟨dh, leftKey, leftPublic, rfl⟩ := left
  obtain ⟨_, rightKey, rightPublic, rfl⟩ := right
  cases sameFunction
  simp only [agree, DhFunction.length_publicKey, dh.sharedSecret_comm leftKey.bytes]

end Noise
