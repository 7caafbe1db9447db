import Noise.Bytes
import Noise.Quad
import Noise.Rotation

/-!
# The ChaCha20 block function

The state is a square of four rows: constants, the two halves of the key, and the
block number with the nonce. A double round mixes the columns and then the
diagonals, all four at once.
-/

namespace Noise.ChaCha20

/-- The square of words that the block function works on. -/
structure Square where
  a : Quad UInt32
  b : Quad UInt32
  c : Quad UInt32
  d : Quad UInt32

/-- Mixes the four columns. -/
def Square.mix (square : Square) : Square :=
  let a := square.a.zipWith (· + ·) square.b
  let d := (square.d.zipWith (· ^^^ ·) a).map (rotateLeft32 · 16)
  let c := square.c.zipWith (· + ·) d
  let b := (square.b.zipWith (· ^^^ ·) c).map (rotateLeft32 · 12)
  let a := a.zipWith (· + ·) b
  let d := (d.zipWith (· ^^^ ·) a).map (rotateLeft32 · 8)
  let c := c.zipWith (· + ·) d
  let b := (b.zipWith (· ^^^ ·) c).map (rotateLeft32 · 7)
  ⟨a, b, c, d⟩

/-- Mixes the columns, then the diagonals. -/
def Square.doubleRound (square : Square) : Square :=
  let ⟨a, b, c, d⟩ := square.mix
  let ⟨a, b, c, d⟩ :=
    Square.mix ⟨a, b.rotate, c.rotate.rotate, d.rotate.rotate.rotate⟩
  ⟨a, b.rotate.rotate.rotate, c.rotate.rotate, d.rotate⟩

/-- `count` double rounds. -/
def Square.rounds : (count : Nat) → Square → Square
  | 0, square => square
  | count + 1, square => rounds count square.doubleRound

/-- The words of a byte string, least significant byte first. -/
def words (bytes : Bytes) : List UInt32 :=
  (bytes.blocks 4).map fun word => UInt32.ofNat word.toNatLE

/-- The state for a key of 32 bytes, a block number and a nonce of 12 bytes. -/
def start (key nonce : Bytes) (number : Nat) : Square :=
  let keyWords := words key
  let nonceWords := words nonce
  ⟨⟨0x61707865, 0x3320646e, 0x79622d32, 0x6b206574⟩, Quad.ofList 0 keyWords,
    Quad.ofList 0 (keyWords.drop 4), Quad.ofList 0 (UInt32.ofNat number :: nonceWords)⟩

/-- A block of 64 bytes of the key stream. -/
def block (key nonce : Bytes) (number : Nat) : Bytes :=
  let before := start key nonce number
  let after := before.rounds 10
  let rows := [before.a.zipWith (· + ·) after.a, before.b.zipWith (· + ·) after.b,
    before.c.zipWith (· + ·) after.c, before.d.zipWith (· + ·) after.d]
  rows.flatMap fun row => row.toList.flatMap fun word => Bytes.ofNatLE 4 word.toNat

@[simp] theorem length_block (key nonce : Bytes) (number : Nat) :
    (block key nonce number).length = 64 := by
  simp [block, Quad.toList]

end Noise.ChaCha20
