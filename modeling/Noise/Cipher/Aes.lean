import Noise.Bytes
import Noise.Quad

/-!
# The AES block function

The state is four columns of four bytes. Keys have 16, 24 or 32 bytes and give ten,
twelve or fourteen rounds.
-/

namespace Noise.Aes

/-- A column of the state, or a word of the key schedule. -/
abbrev Column := Quad UInt8

/-- The state, or a round key. -/
abbrev Square := Quad Column

/-- Multiplication by the generator of the field of 256 elements. -/
def double (byte : UInt8) : UInt8 :=
  if byte < 0x80 then byte <<< 1 else (byte <<< 1) ^^^ 0x1b

/-- The sum of `left · 2ⁱ` over the lowest `count` bits of `right`. -/
def multiply : (count : Nat) → (left right : UInt8) → UInt8
  | 0, _, _ => 0
  | count + 1, left, right =>
      (if right &&& 1 = 1 then left else 0) ^^^
        multiply count (double left) (right >>> 1)

def product (left right : UInt8) : UInt8 := multiply 8 left right

/-- The product of the next `count` squarings of `byte`. -/
def squarings : (count : Nat) → (byte : UInt8) → UInt8
  | 0, _ => 1
  | count + 1, byte =>
      let square := product byte byte
      product square (squarings count square)

/-- The inverse in the field, as a power with exponent 254; zero stays zero. -/
def inverse (byte : UInt8) : UInt8 := squarings 7 byte

/-- The substitution of a byte: its inverse, then an affine map over the bits. -/
def substitution (byte : UInt8) : UInt8 :=
  let inv := inverse byte
  let turned (count : UInt8) : UInt8 := (inv <<< count) ||| (inv >>> (8 - count))
  inv ^^^ turned 1 ^^^ turned 2 ^^^ turned 3 ^^^ turned 4 ^^^ 0x63

/-- The substitution of every byte. -/
def substitutions : Array UInt8 :=
  ((List.range 256).map fun value => substitution (UInt8.ofNat value)).toArray

/-- The substitution, looked up. -/
def substitute (byte : UInt8) : UInt8 := substitutions.getD byte.toNat 0

/-- Sum in the field, at each place. -/
def add (left right : Column) : Column := left.zipWith (· ^^^ ·) right

/-- Adds a round key. -/
def addKey (state key : Square) : Square := state.zipWith add key

/-- Moves row `i` to the left by `i` columns. -/
def shiftRows (state : Square) : Square :=
  let ⟨a, b, c, d⟩ := state
  ⟨⟨a.x0, b.x1, c.x2, d.x3⟩, ⟨b.x0, c.x1, d.x2, a.x3⟩,
    ⟨c.x0, d.x1, a.x2, b.x3⟩, ⟨d.x0, a.x1, b.x2, c.x3⟩⟩

/-- Multiplies a column by the fixed circulant matrix with the row 2, 3, 1, 1. -/
def mixColumn (column : Column) : Column :=
  let ⟨a, b, c, d⟩ := column
  let sum := a ^^^ b ^^^ c ^^^ d
  ⟨a ^^^ sum ^^^ double (a ^^^ b), b ^^^ sum ^^^ double (b ^^^ c),
    c ^^^ sum ^^^ double (c ^^^ d), d ^^^ sum ^^^ double (d ^^^ a)⟩

/-- The first steps of a round, before the columns are mixed. -/
def substituteAndShift (state : Square) : Square :=
  shiftRows (state.map fun column => column.map substitute)

/-- The rounds for the remaining round keys. The last round does not mix the columns. -/
def rounds : List Square → Square → Square
  | [], state => state
  | [key], state => addKey (substituteAndShift state) key
  | key :: rest, state =>
      rounds rest (addKey ((substituteAndShift state).map mixColumn) key)

/-- The state after every round key. -/
def encrypt (keys : List Square) (state : Square) : Square :=
  match keys with
  | [] => state
  | key :: rest => rounds rest (addKey state key)

/-- The powers of the generator: the constants of the key schedule. -/
def constant : (power : Nat) → UInt8
  | 0 => 1
  | power + 1 => double (constant power)

/-- The key schedule with `count` more words. Words stand latest first; `place` is the
number of the next word and `size` the number of words of the key. -/
def extend (size : Nat) : (count : Nat) → (place : Nat) → (latest : List Column) →
    List Column
  | 0, _, latest => latest
  | count + 1, place, latest =>
      let zero : Column := ⟨0, 0, 0, 0⟩
      let previous := latest.getD 0 zero
      let changed : Column :=
        if place % size = 0 then
          add (previous.rotate.map substitute) ⟨constant (place / size - 1), 0, 0, 0⟩
        else if 6 < size ∧ place % size = 4 then previous.map substitute
        else previous
      extend size count (place + 1)
        (add (latest.getD (size - 1) zero) changed :: latest)

/-- A byte string as columns. -/
def columns (bytes : Bytes) : List Column := (bytes.blocks 4).map (Quad.ofList 0)

/-- The first `count` groups of four columns. -/
def squares : (count : Nat) → List Column → List Square
  | 0, _ => []
  | count + 1, words => Quad.ofList ⟨0, 0, 0, 0⟩ words :: squares count (words.drop 4)

/-- The round keys of a key: seven more than it has words. -/
def roundKeys (key : Bytes) : List Square :=
  let words := columns key
  let size := words.length
  squares (size + 7) (extend size (4 * (size + 7) - size) size words.reverse).reverse

/-- A block of 16 bytes, encrypted under round keys. -/
def block (keys : List Square) (bytes : Bytes) : Bytes :=
  (encrypt keys (Quad.ofList ⟨0, 0, 0, 0⟩ (columns bytes))).toList.flatMap Quad.toList

@[simp] theorem length_block (keys : List Square) (bytes : Bytes) :
    (block keys bytes).length = 16 := by
  simp [block, Quad.toList]

end Noise.Aes
