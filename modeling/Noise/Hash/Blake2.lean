import Noise.Bytes
import Noise.Quad
import Noise.Rotation
import Noise.Hash.Constants

/-!
# BLAKE2s and BLAKE2b

Unkeyed hashing with the longest digest: 32 bytes for BLAKE2s and 64 for BLAKE2b. The
state is a square of four rows. A round mixes the four columns at once, turns the rows
so that the diagonals stand as columns, mixes again and turns back.
-/

namespace Noise.Blake2

open Noise.Hash

/-- The words that a member of the family computes with. -/
class Word (W : Type) extends Add W, XorOp W where
  /-- Length of a word in bytes. -/
  bytes : Nat
  /-- The word with the low bits of a number. -/
  ofNat : Nat → W
  /-- The number that a word stands for. -/
  toNat : W → Nat
  /-- The word moved in a circle to the right, by the first to fourth
  rotation of a mixing. -/
  turn1 : W → W
  turn2 : W → W
  turn3 : W → W
  turn4 : W → W
  /-- Number of rounds. -/
  rounds : Nat
  /-- The first row of constants. -/
  first : Quad W
  /-- The second row of constants. -/
  second : Quad W

instance : Word UInt32 where
  bytes := 4
  ofNat := UInt32.ofNat
  toNat := UInt32.toNat
  turn1 x := rotateRight32 x 16
  turn2 x := rotateRight32 x 12
  turn3 x := rotateRight32 x 8
  turn4 x := rotateRight32 x 7
  rounds := 10
  first := Quad.ofList 0 (squareRoots.map upperHalf)
  second := Quad.ofList 0 ((squareRoots.drop 4).map upperHalf)

instance : Word UInt64 where
  bytes := 8
  ofNat := UInt64.ofNat
  toNat := UInt64.toNat
  turn1 x := rotateRight64 x 32
  turn2 x := rotateRight64 x 24
  turn3 x := rotateRight64 x 16
  turn4 x := rotateRight64 x 63
  rounds := 12
  first := Quad.ofList 0 squareRoots
  second := Quad.ofList 0 (squareRoots.drop 4)

/-- The order in which a round reads the block, for ten rounds; later rounds
start over. -/
def orders : List (List Nat) :=
  [[0, 1, 2, 3, 4, 5, 6, 7, 8, 9, 10, 11, 12, 13, 14, 15],
   [14, 10, 4, 8, 9, 15, 13, 6, 1, 12, 0, 2, 11, 7, 5, 3],
   [11, 8, 12, 0, 5, 2, 15, 13, 10, 14, 3, 6, 7, 1, 9, 4],
   [7, 9, 3, 1, 13, 12, 11, 14, 2, 6, 5, 10, 4, 0, 15, 8],
   [9, 0, 5, 7, 2, 4, 10, 15, 14, 1, 11, 12, 6, 8, 3, 13],
   [2, 12, 6, 10, 0, 11, 8, 3, 4, 13, 7, 5, 15, 14, 1, 9],
   [12, 5, 1, 15, 14, 13, 4, 10, 0, 7, 6, 3, 9, 2, 8, 11],
   [13, 11, 7, 14, 12, 1, 3, 9, 5, 0, 15, 4, 8, 6, 2, 10],
   [6, 15, 14, 9, 11, 3, 0, 8, 12, 2, 13, 7, 1, 4, 10, 5],
   [10, 2, 8, 4, 7, 6, 1, 5, 15, 11, 9, 14, 3, 12, 13, 0]]

/-- The square of words that a compression works on. -/
structure Square (W : Type) where
  a : Quad W
  b : Quad W
  c : Quad W
  d : Quad W

/-- The eight chained words, in two rows. -/
structure Chain (W : Type) where
  top : Quad W
  bottom : Quad W
deriving DecidableEq, Repr

variable {W : Type} [Word W]

/-- Mixes the four columns with two words of the block for each. -/
@[specialize] def Square.mix (square : Square W) (left right : Quad W) : Square W :=
  let a := (square.a.zipWith (· + ·) square.b).zipWith (· + ·) left
  let d := (square.d.zipWith (· ^^^ ·) a).map Word.turn1
  let c := square.c.zipWith (· + ·) d
  let b := (square.b.zipWith (· ^^^ ·) c).map Word.turn2
  let a := (a.zipWith (· + ·) b).zipWith (· + ·) right
  let d := (d.zipWith (· ^^^ ·) a).map Word.turn3
  let c := c.zipWith (· + ·) d
  let b := (b.zipWith (· ^^^ ·) c).map Word.turn4
  ⟨a, b, c, d⟩

/-- Turns the rows so that each diagonal becomes a column. -/
def Square.turn (square : Square W) : Square W :=
  ⟨square.a, square.b.rotate, square.c.rotate.rotate, square.d.rotate.rotate.rotate⟩

/-- Turns the rows back. -/
def Square.turnBack (square : Square W) : Square W :=
  ⟨square.a, square.b.rotate.rotate.rotate, square.c.rotate.rotate, square.d.rotate⟩

/-- One round over the words of a block, read in the given order. -/
@[specialize] def Square.round (words : List W) (square : Square W) (order : List Nat) :
    Square W :=
  let word (place : Nat) : W := words.getD (order.getD place 0) (Word.ofNat 0)
  let columns :=
    square.mix ⟨word 0, word 2, word 4, word 6⟩ ⟨word 1, word 3, word 5, word 7⟩
  (columns.turn.mix ⟨word 8, word 10, word 12, word 14⟩
    ⟨word 9, word 11, word 13, word 15⟩).turnBack

/-- The chain after one block. `offset` is the number of message bytes up to the end of
the block, and `last` marks the last block. -/
@[specialize] def compress (chain : Chain W) (block : Bytes) (offset : Nat)
    (last : Bool) : Chain W :=
  let size := Word.bytes W
  let words : List W := ((block.padZeros (16 * size)).blocks size).map fun bytes =>
    Word.ofNat bytes.toNatLE
  let mask : Quad W :=
    ⟨Word.ofNat offset, Word.ofNat (offset / Bytes.capacity size),
      Word.ofNat (if last then Bytes.capacity size - 1 else 0), Word.ofNat 0⟩
  let start : Square W :=
    ⟨chain.top, chain.bottom, Word.first, Word.second.zipWith (· ^^^ ·) mask⟩
  let result :=
    ((List.range (Word.rounds W)).map fun round => orders.getD (round % 10) []).foldl
      (Square.round words) start
  ⟨chain.top.zipWith (· ^^^ ·) (result.a.zipWith (· ^^^ ·) result.c),
    chain.bottom.zipWith (· ^^^ ·) (result.b.zipWith (· ^^^ ·) result.d)⟩

/-- The chain after the remaining blocks of a message; an empty message is
one empty block. -/
@[specialize] def absorb (chain : Chain W) (offset : Nat) : List Bytes → Chain W
  | [] => compress chain [] offset true
  | [block] => compress chain block (offset + block.length) true
  | block :: rest =>
      absorb (compress chain block (offset + block.length) false)
        (offset + block.length) rest

/-- The chained words as bytes, least significant byte first. -/
@[specialize] def Chain.toBytes (chain : Chain W) : Bytes :=
  (chain.top.toList ++ chain.bottom.toList).flatMap fun word =>
    Bytes.ofNatLE (Word.bytes W) (Word.toNat word)

/-- The digest of a message. The first constant takes in the digest length and marks
hashing without a key and without a tree. -/
@[specialize] def hash (W : Type) [Word W] (message : Bytes) : Bytes :=
  let size := Word.bytes W
  let parameters : W := Word.ofNat (0x01010000 + 8 * size)
  let top : Quad W := Word.first
  let initial : Chain W :=
    ⟨⟨top.x0 ^^^ parameters, top.x1, top.x2, top.x3⟩, Word.second⟩
  (absorb initial 0 (message.blocks (16 * size))).toBytes

/-- The digest has eight words. -/
@[simp] theorem length_hash (message : Bytes) :
    (hash W message).length = 8 * Word.bytes W := by
  simp [hash, Chain.toBytes, Quad.toList]
  omega

end Noise.Blake2

namespace Noise

/-- BLAKE2s with a digest of 32 bytes. -/
def blake2s (message : Bytes) : Bytes := Blake2.hash UInt32 message

/-- BLAKE2b with a digest of 64 bytes. -/
def blake2b (message : Bytes) : Bytes := Blake2.hash UInt64 message

end Noise
