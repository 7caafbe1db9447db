import Noise.Bytes

/-!
# X25519 and X448

Scalar multiplication on a Montgomery curve by its first coordinate alone. A point is a
fraction; the ladder keeps the multiples of the base point by `n` and `n + 1` and takes
in the scalar bit by bit, most significant first.
-/

namespace Noise

/-- A Montgomery curve over a prime field, with the encoding of its scalars
and points. -/
structure Curve where
  /-- The prime of the field. -/
  prime : Nat
  /-- A quarter of the curve's linear coefficient less two. -/
  coefficient : Nat
  /-- Number of bits of a point. -/
  bits : Nat
  /-- The factor that every scalar is a multiple of. -/
  cofactor : Nat
  /-- First coordinate of the base point. -/
  base : Nat
  /-- Length of keys and shared secrets in bytes. -/
  keyLength : Nat

namespace Curve

def x25519 : Curve where
  prime := (1 <<< 255) - 19
  coefficient := 121665
  bits := 255
  cofactor := 8
  base := 9
  keyLength := 32

def x448 : Curve where
  prime := (1 <<< 448) - (1 <<< 224) - 1
  coefficient := 39081
  bits := 448
  cofactor := 4
  base := 5
  keyLength := 56

/-- A first coordinate as a fraction. -/
structure Point where
  x : Nat
  z : Nat

variable (curve : Curve)

def add (left right : Nat) : Nat := (left + right) % curve.prime

def sub (left right : Nat) : Nat := (left + (curve.prime - right)) % curve.prime

def mul (left right : Nat) : Nat := left * right % curve.prime

/-- The bits of a number below position `count`, most significant first. -/
def bitsOf (value : Nat) : (count : Nat) → List Bool
  | 0 => []
  | count + 1 => value.testBit count :: bitsOf value count

/-- A power of a field element, by repeated squaring. -/
def pow (value exponent : Nat) : Nat :=
  (bitsOf exponent curve.bits).foldl
    (fun power bit =>
      let square := curve.mul power power
      if bit then curve.mul square value else square) 1

/-- Twice a point. -/
def double (point : Point) : Point :=
  let plus := curve.add point.x point.z
  let minus := curve.sub point.x point.z
  let plusSquare := curve.mul plus plus
  let minusSquare := curve.mul minus minus
  let difference := curve.sub plusSquare minusSquare
  ⟨curve.mul plusSquare minusSquare,
    curve.mul difference
      (curve.add plusSquare (curve.mul curve.coefficient difference))⟩

/-- The sum of two points whose difference has first coordinate `u`. -/
def addPoints (u : Nat) (left right : Point) : Point :=
  let first := curve.mul (curve.sub right.x right.z) (curve.add left.x left.z)
  let second := curve.mul (curve.add right.x right.z) (curve.sub left.x left.z)
  let sum := curve.add first second
  let difference := curve.sub first second
  ⟨curve.mul sum sum, curve.mul u (curve.mul difference difference)⟩

/-- The multiples by `n` and `n + 1` become those by `2n + bit` and `2n + bit + 1`. -/
def ladderStep (u : Nat) (pair : Point × Point) (bit : Bool) : Point × Point :=
  let sum := curve.addPoints u pair.1 pair.2
  if bit then (sum, curve.double pair.2) else (curve.double pair.1, sum)

/-- First coordinate of the multiple of the point with first coordinate `u`. -/
def multiply (scalar u : Nat) : Nat :=
  let result := (bitsOf scalar curve.bits).foldl (curve.ladderStep u) (⟨1, 0⟩, ⟨u, 1⟩)
  curve.mul result.1.x (curve.pow result.1.z (curve.prime - 2))

/-- The scalar of a private key: a multiple of the cofactor with its top bit set. -/
def scalar (privateKey : Bytes) : Nat :=
  let top := 1 <<< (curve.bits - 1)
  privateKey.toNatLE / curve.cofactor * curve.cofactor % top + top

/-- The field element of a public key. Bits above the field are dropped and
the rest is reduced. -/
def coordinate (publicKey : Bytes) : Nat :=
  publicKey.toNatLE % (1 <<< curve.bits) % curve.prime

/-- The multiple of a point by a private key, as bytes. -/
def scalarMult (privateKey : Bytes) (u : Nat) : Bytes :=
  Bytes.ofNatLE curve.keyLength (curve.multiply (curve.scalar privateKey) u)

@[simp] theorem length_scalarMult (privateKey : Bytes) (u : Nat) :
    (curve.scalarMult privateKey u).length = curve.keyLength := by
  simp [scalarMult]

end Curve

end Noise
