import Mathlib.AlgebraicGeometry.EllipticCurve.Affine.Point
import Mathlib.Tactic.FieldSimp
import Mathlib.Tactic.LinearCombination

/-!
# The group of a Montgomery curve by first coordinates

The points of `y² = x³ + (4a + 2)x² + x` form a commutative group.  A fraction
represents a point if it is the point's first coordinate, or has denominator zero at the
point at infinity.  The two formulas of the ladder, doubling and addition at a known
difference, take representatives to representatives, in every case that the ladder
meets: the only first coordinate that a difference must not have is zero.
-/

namespace Noise.Montgomery

open WeierstrassCurve.Affine

variable {K : Type*} [Field K]

/-- The curve whose linear coefficient is `4a + 2`. -/
def weierstrass (a : K) : WeierstrassCurve.Affine K where
  a₁ := 0
  a₂ := 4 * a + 2
  a₃ := 0
  a₄ := 1
  a₆ := 0

/-- The conditions under which the curve has no singular point. -/
structure Regular (a : K) : Prop where
  two_ne_zero : (2 : K) ≠ 0
  ne_zero : a ≠ 0
  add_one_ne_zero : a + 1 ≠ 0

variable {a : K}

theorem equation_iff {x y : K} :
    (weierstrass a).Equation x y ↔ y ^ 2 = x ^ 3 + (4 * a + 2) * x ^ 2 + x := by
  rw [WeierstrassCurve.Affine.equation_iff]
  simp [weierstrass]

@[simp] theorem negY_eq (x y : K) : (weierstrass a).negY x y = -y := by
  simp [negY, weierstrass]

theorem addX_eq (x u ℓ : K) :
    (weierstrass a).addX x u ℓ = ℓ ^ 2 - (4 * a + 2) - x - u := by
  simp [addX, weierstrass]

/-- A regular curve has a point at every solution of its equation. -/
theorem Regular.nonsingular (regular : Regular a) {x y : K}
    (solution : (weierstrass a).Equation x y) : (weierstrass a).Nonsingular x y := by
  apply (equation_iff_nonsingular_of_Δ_ne_zero _).1 solution
  have discriminant : (weierstrass a).Δ = 2 ^ 8 * (a * (a + 1)) := by
    simp only [WeierstrassCurve.Δ, WeierstrassCurve.b₂, WeierstrassCurve.b₄,
      WeierstrassCurve.b₆, WeierstrassCurve.b₈, weierstrass]
    ring
  rw [discriminant]
  exact mul_ne_zero (pow_ne_zero _ regular.two_ne_zero)
    (mul_ne_zero regular.ne_zero regular.add_one_ne_zero)

/-- The first coordinate of a point, and zero at infinity. -/
def firstCoordinate : (weierstrass a).Point → K
  | .zero => 0
  | .some x _ _ => x

@[simp] theorem firstCoordinate_some {x y : K}
    (nonsingular : (weierstrass a).Nonsingular x y) :
    firstCoordinate (.some x y nonsingular) = x := rfl

/-- A fraction for the first coordinate of a point. -/
def Represents : (weierstrass a).Point → (x z : K) → Prop
  | .zero, x, z => x ≠ 0 ∧ z = 0
  | .some u _ _, x, z => z ≠ 0 ∧ x = u * z

/-- Infinity is represented by the fractions with denominator zero. -/
theorem represents_zero {x z : K} :
    Represents (0 : (weierstrass a).Point) x z ↔ x ≠ 0 ∧ z = 0 := Iff.rfl

/-- Any other point is represented by the fractions of its first coordinate. -/
theorem represents_iff {point : (weierstrass a).Point} (finite : point ≠ 0) {x z : K} :
    Represents point x z ↔ z ≠ 0 ∧ x = firstCoordinate point * z := by
  cases point with
  | zero => exact absurd rfl finite
  | some u v nonsingular => exact Iff.rfl

/-- A representative tells the first coordinate. -/
theorem Represents.div_eq {point : (weierstrass a).Point} {x z : K}
    (represents : Represents point x z) : x / z = firstCoordinate point := by
  cases point with
  | zero => simp [represents.2, firstCoordinate]
  | some u v nonsingular =>
      obtain ⟨nonzero, rfl⟩ := represents
      exact mul_div_cancel_right₀ u nonzero

/-- At a point of order two the square of the first coordinate is not one. -/
theorem Regular.sq_sub_one_ne_zero (regular : Regular a) {x : K}
    (equation : (weierstrass a).Equation x 0) : x ^ 2 - 1 ≠ 0 := by
  intro square
  rw [equation_iff] at equation
  have product : 2 ^ 4 * (a * (a + 1)) = 0 := by
    linear_combination -(4 * a + 2 - 2 * x) * equation +
      (4 - (4 * a + 2 - 2 * x) * (4 * a + 2 + x)) * square
  exact mul_ne_zero (pow_ne_zero _ regular.two_ne_zero)
    (mul_ne_zero regular.ne_zero regular.add_one_ne_zero) product

variable [DecidableEq K]

/-! ## Doubling -/

/-- Twice a point whose second coordinate is zero is infinity. -/
theorem add_self_of_flat {x y : K} {nonsingular : (weierstrass a).Nonsingular x y}
    (flat : 2 * y = 0) :
    Point.some x y nonsingular + Point.some x y nonsingular = 0 := by
  apply Point.add_self_of_Y_eq
  rw [negY_eq]
  linear_combination flat

/-- The first coordinate of twice any other point. -/
theorem firstCoordinate_add_self {x y : K}
    (nonsingular : (weierstrass a).Nonsingular x y) (steep : 2 * y ≠ 0) :
    Point.some x y nonsingular + Point.some x y nonsingular ≠ 0 ∧
      firstCoordinate (Point.some x y nonsingular + Point.some x y nonsingular) *
        (2 * y) ^ 2 = (x ^ 2 - 1) ^ 2 := by
  have moved : y ≠ (weierstrass a).negY x y := by
    intro fixed
    apply steep
    rw [negY_eq] at fixed
    linear_combination fixed
  have tangent : (weierstrass a).slope x x y y * (2 * y) =
      3 * x ^ 2 + 2 * (4 * a + 2) * x + 1 := by
    have denominator : y - -y = 2 * y := by ring
    rw [slope_of_Y_ne rfl moved, negY_eq, denominator, div_mul_cancel₀ _ steep]
    simp [weierstrass]
  have equation := equation_iff.1 nonsingular.1
  rw [Point.add_self_of_Y_ne moved]
  refine ⟨Point.some_ne_zero _, ?_⟩
  rw [firstCoordinate_some, addX_eq]
  generalize (weierstrass a).slope x x y y = ℓ at tangent ⊢
  linear_combination (ℓ * (2 * y) + 3 * x ^ 2 + 2 * (4 * a + 2) * x + 1) * tangent -
    4 * (4 * a + 2 + 2 * x) * equation

/-- The doubling formula of the ladder. -/
theorem Represents.double (regular : Regular a) {point : (weierstrass a).Point}
    {x z : K} (represents : Represents point x z) :
    Represents (point + point) ((x + z) ^ 2 * (x - z) ^ 2)
      (((x + z) ^ 2 - (x - z) ^ 2) *
        ((x + z) ^ 2 + a * ((x + z) ^ 2 - (x - z) ^ 2))) := by
  cases point with
  | zero =>
      obtain ⟨nonzero, rfl⟩ := represents
      change Represents 0 _ _
      rw [represents_zero]
      exact ⟨by simpa using nonzero, by ring⟩
  | some u v nonsingular =>
      obtain ⟨nonzero, rfl⟩ := represents
      have equation := equation_iff.1 nonsingular.1
      have numerator :
          (u * z + z) ^ 2 * (u * z - z) ^ 2 = (u ^ 2 - 1) ^ 2 * z ^ 4 := by ring
      have denominator : ((u * z + z) ^ 2 - (u * z - z) ^ 2) *
          ((u * z + z) ^ 2 + a * ((u * z + z) ^ 2 - (u * z - z) ^ 2)) =
            (2 * v) ^ 2 * z ^ 4 := by
        linear_combination -4 * z ^ 4 * equation
      rw [numerator, denominator]
      by_cases flat : 2 * v = 0
      · have order : v = 0 := (mul_eq_zero.1 flat).resolve_left regular.two_ne_zero
        rw [add_self_of_flat flat, represents_zero, flat]
        have square := regular.sq_sub_one_ne_zero (order ▸ nonsingular.1)
        exact ⟨mul_ne_zero (pow_ne_zero _ square) (pow_ne_zero _ nonzero), by ring⟩
      · obtain ⟨finite, coordinate⟩ := firstCoordinate_add_self nonsingular flat
        rw [represents_iff finite, ← coordinate]
        exact ⟨mul_ne_zero (pow_ne_zero _ flat) (pow_ne_zero _ nonzero), by ring⟩

/-! ## Addition at a known difference -/

/-- The first coordinates of a sum and a difference determine each other. -/
theorem firstCoordinate_add_mul_sub {x y u v : K}
    (left : (weierstrass a).Nonsingular x y) (right : (weierstrass a).Nonsingular u v)
    (apart : x ≠ u) :
    Point.some x y left + Point.some u v right ≠ 0 ∧
      firstCoordinate (Point.some x y left + Point.some u v right) *
          firstCoordinate (Point.some u v right - Point.some x y left) * (u - x) ^ 2 =
        (u * x - 1) ^ 2 := by
  have gap : u - x ≠ 0 := sub_ne_zero.2 apart.symm
  have chord : (weierstrass a).slope x u y v * (u - x) = v - y := by
    rw [slope_of_X_ne apart, ← neg_div_neg_eq, neg_sub, neg_sub, div_mul_cancel₀ _ gap]
  have crossing : (weierstrass a).slope u x v ((weierstrass a).negY x y) * (u - x) =
      v + y := by
    rw [slope_of_X_ne apart.symm, div_mul_cancel₀ _ gap, negY_eq, sub_neg_eq_add]
  have leftEquation := equation_iff.1 left.1
  have rightEquation := equation_iff.1 right.1
  rw [sub_eq_add_neg, Point.neg_some, Point.add_of_X_ne apart,
    Point.add_of_X_ne apart.symm]
  refine ⟨Point.some_ne_zero _, ?_⟩
  rw [firstCoordinate_some, firstCoordinate_some, addX_eq, addX_eq]
  generalize (weierstrass a).slope x u y v = ℓ at chord ⊢
  generalize (weierstrass a).slope u x v ((weierstrass a).negY x y) = m at crossing ⊢
  apply mul_right_cancel₀ (pow_ne_zero 2 gap)
  -- Both factors, cleared of denominators, are `y² + v² - t` up to the sign of `2yv`.
  have sum : (ℓ ^ 2 - (4 * a + 2) - x - u) * (u - x) ^ 2 =
      (v - y) ^ 2 - (4 * a + 2 + x + u) * (u - x) ^ 2 := by
    rw [← chord]
    ring
  have difference : (m ^ 2 - (4 * a + 2) - u - x) * (u - x) ^ 2 =
      (v + y) ^ 2 - (4 * a + 2 + x + u) * (u - x) ^ 2 := by
    rw [← crossing]
    ring
  calc (ℓ ^ 2 - (4 * a + 2) - x - u) * (m ^ 2 - (4 * a + 2) - u - x) * (u - x) ^ 2 *
        (u - x) ^ 2
      = ((v - y) ^ 2 - (4 * a + 2 + x + u) * (u - x) ^ 2) *
          ((v + y) ^ 2 - (4 * a + 2 + x + u) * (u - x) ^ 2) := by
        rw [← sum, ← difference]
        ring
    _ = (y ^ 2 + v ^ 2 - (4 * a + 2 + x + u) * (u - x) ^ 2) ^ 2 - 4 *
      (y ^ 2 * v ^ 2) := by ring
    _ = (u * x - 1) ^ 2 * (u - x) ^ 2 := by
        rw [leftEquation, rightEquation]
        ring

/-- Two points with one first coordinate are opposite, if the first coordinate of their
difference is not zero. -/
theorem opposite_of_firstCoordinate_eq {x y v : K}
    {left : (weierstrass a).Nonsingular x y} {right : (weierstrass a).Nonsingular x v}
    (nonzero : firstCoordinate (Point.some x v right - Point.some x y left) ≠ 0) :
    Point.some x y left + Point.some x v right = 0 ∧ x ^ 2 - 1 ≠ 0 := by
  have equalOrOpposite : Point.some x y left = Point.some x v right ∨
      Point.some x y left = -Point.some x v right := Point.X_eq_iff.1 rfl
  rcases equalOrOpposite with same | opposite
  · rw [same, sub_self] at nonzero
    exact absurd rfl nonzero
  · rw [opposite, sub_neg_eq_add] at nonzero
    refine ⟨by rw [opposite, neg_add_cancel], ?_⟩
    have steep : 2 * v ≠ 0 := by
      intro flat
      rw [add_self_of_flat flat] at nonzero
      exact nonzero rfl
    have coordinate := (firstCoordinate_add_self right steep).2
    intro square
    rw [square, zero_pow two_ne_zero] at coordinate
    exact mul_ne_zero nonzero (pow_ne_zero 2 steep) coordinate

/-- The addition formula at two finite points. -/
theorem represents_some_add_some (regular : Regular a) {p q r s z₁ z₂ : K}
    (left : (weierstrass a).Nonsingular p q) (right : (weierstrass a).Nonsingular r s)
    (leftNonzero : z₁ ≠ 0) (rightNonzero : z₂ ≠ 0)
    (nonzero : firstCoordinate (Point.some r s right - Point.some p q left) ≠ 0) :
    Represents (Point.some p q left + Point.some r s right)
      ((2 * (p * z₁ * (r * z₂) - z₁ * z₂)) ^ 2)
      (firstCoordinate (Point.some r s right - Point.some p q left) *
        (2 * (r * z₂ * z₁ - p * z₁ * z₂)) ^ 2) := by
  have two := regular.two_ne_zero
  by_cases equal : p = r
  · subst equal
    obtain ⟨cancel, square⟩ := opposite_of_firstCoordinate_eq nonzero
    have factored : p * z₁ * (p * z₂) - z₁ * z₂ = (p ^ 2 - 1) * (z₁ * z₂) := by ring
    rw [cancel, represents_zero, factored]
    constructor
    · simp [two, square, leftNonzero, rightNonzero]
    · ring
  · obtain ⟨sumFinite, product⟩ := firstCoordinate_add_mul_sub left right equal
    have gap : r - p ≠ 0 := sub_ne_zero.2 (Ne.symm equal)
    have factored : r * z₂ * z₁ - p * z₁ * z₂ = (r - p) * (z₁ * z₂) := by ring
    rw [represents_iff sumFinite, factored]
    constructor
    · simp [two, nonzero, gap, leftNonzero, rightNonzero]
    · linear_combination -(4 * z₁ ^ 2 * z₂ ^ 2) * product

/-- The addition formula of the ladder. -/
theorem Represents.add (regular : Regular a) {left right step : (weierstrass a).Point}
    {x₁ z₁ x₂ z₂ : K} (first : Represents left x₁ z₁) (second : Represents right x₂ z₂)
    (apart : right = left + step) (nonzero : firstCoordinate step ≠ 0) :
    Represents (left + right)
      (((x₂ - z₂) * (x₁ + z₁) + (x₂ + z₂) * (x₁ - z₁)) ^ 2)
      (firstCoordinate step * ((x₂ - z₂) * (x₁ + z₁) - (x₂ + z₂) * (x₁ - z₁)) ^ 2) := by
  have two := regular.two_ne_zero
  have numerator : ((x₂ - z₂) * (x₁ + z₁) + (x₂ + z₂) * (x₁ - z₁)) ^ 2 =
      (2 * (x₁ * x₂ - z₁ * z₂)) ^ 2 := by ring
  have denominator : ((x₂ - z₂) * (x₁ + z₁) - (x₂ + z₂) * (x₁ - z₁)) ^ 2 =
      (2 * (x₂ * z₁ - x₁ * z₂)) ^ 2 := by ring
  rw [numerator, denominator]
  obtain rfl : step = right - left := by rw [apart, add_sub_cancel_left]
  cases left with
  | zero =>
      have finite : right ≠ 0 := by
        rintro rfl
        exact nonzero rfl
      obtain ⟨leftNonzero, rfl⟩ := first
      rw [represents_iff finite] at second
      obtain ⟨rightNonzero, rfl⟩ := second
      change firstCoordinate (right - 0) ≠ 0 at nonzero
      change Represents (0 + right) _ (firstCoordinate (right - 0) * _)
      rw [sub_zero] at nonzero ⊢
      rw [zero_add, represents_iff finite]
      constructor
      · simp [two, nonzero, leftNonzero, rightNonzero]
      · ring
  | some p q leftNonsingular =>
      obtain ⟨leftNonzero, rfl⟩ := first
      cases right with
      | zero =>
          obtain ⟨rightNonzero, rfl⟩ := second
          change firstCoordinate (0 - _) ≠ 0 at nonzero
          change Represents (_ + 0) _ (firstCoordinate (0 - _) * _)
          rw [zero_sub, Point.neg_some, firstCoordinate_some] at nonzero ⊢
          rw [add_zero, represents_iff (Point.some_ne_zero _), firstCoordinate_some]
          constructor
          · simp [two, nonzero, leftNonzero, rightNonzero]
          · ring
      | some r s rightNonsingular =>
          obtain ⟨rightNonzero, rfl⟩ := second
          exact represents_some_add_some regular leftNonsingular rightNonsingular
            leftNonzero rightNonzero nonzero

end Noise.Montgomery
