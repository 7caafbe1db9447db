import Noise.Bytes
import Noise.Quad
import Noise.Rotation
import Noise.Hash.Constants

/-!
# SHA-256 and SHA-512

The two functions differ in the word, the rotations and the number of rounds.
`Word` gathers what differs; padding, message schedule and compression are
written once over it.
-/

namespace Noise.Sha2

open Noise.Hash

/-- The words that a member of the family computes with. -/
class Word (W : Type) extends Add W, XorOp W, AndOp W, Complement W where
  /-- Length of a word in bytes. -/
  bytes : Nat
  /-- The word with the low bits of a number. -/
  ofNat : Nat → W
  /-- The number that a word stands for. -/
  toNat : W → Nat
  /-- Mixing of the first word of a chain. -/
  bigSigma0 : W → W
  /-- Mixing of the fifth word of a chain. -/
  bigSigma1 : W → W
  /-- Mixing of the schedule word fifteen rounds back. -/
  smallSigma0 : W → W
  /-- Mixing of the schedule word two rounds back. -/
  smallSigma1 : W → W
  /-- The constant added in each round. -/
  rounds : List W
  /-- The first four words of the initial chain. -/
  first : Quad W
  /-- The last four words of the initial chain. -/
  second : Quad W

instance : Word UInt32 where
  bytes := 4
  ofNat := UInt32.ofNat
  toNat := UInt32.toNat
  bigSigma0 x := rotateRight32 x 2 ^^^ rotateRight32 x 13 ^^^ rotateRight32 x 22
  bigSigma1 x := rotateRight32 x 6 ^^^ rotateRight32 x 11 ^^^ rotateRight32 x 25
  smallSigma0 x := rotateRight32 x 7 ^^^ rotateRight32 x 18 ^^^ (x >>> 3)
  smallSigma1 x := rotateRight32 x 17 ^^^ rotateRight32 x 19 ^^^ (x >>> 10)
  rounds := (cubeRoots.take 64).map upperHalf
  first := Quad.ofList 0 (squareRoots.map upperHalf)
  second := Quad.ofList 0 ((squareRoots.drop 4).map upperHalf)

instance : Word UInt64 where
  bytes := 8
  ofNat := UInt64.ofNat
  toNat := UInt64.toNat
  bigSigma0 x := rotateRight64 x 28 ^^^ rotateRight64 x 34 ^^^ rotateRight64 x 39
  bigSigma1 x := rotateRight64 x 14 ^^^ rotateRight64 x 18 ^^^ rotateRight64 x 41
  smallSigma0 x := rotateRight64 x 1 ^^^ rotateRight64 x 8 ^^^ (x >>> 7)
  smallSigma1 x := rotateRight64 x 19 ^^^ rotateRight64 x 61 ^^^ (x >>> 6)
  rounds := cubeRoots
  first := Quad.ofList 0 squareRoots
  second := Quad.ofList 0 (squareRoots.drop 4)

/-- The eight chained words, in two rows. -/
structure Chain (W : Type) where
  abcd : Quad W
  efgh : Quad W
deriving DecidableEq, Repr

variable {W : Type} [Word W]

/-- The schedule with `count` more words. Words stand latest first, so a new word reads
the places 1, 6, 14 and 15. -/
@[specialize] def extend : (count : Nat) → (latest : List W) → List W
  | 0, latest => latest
  | count + 1, latest =>
      let zero : W := Word.ofNat 0
      let word := Word.smallSigma1 (latest.getD 1 zero) + latest.getD 6 zero +
        (Word.smallSigma0 (latest.getD 14 zero) + latest.getD 15 zero)
      extend count (word :: latest)

/-- The words of a block, one a round: the block itself, then the words
derived from it. -/
@[specialize] def schedule (block : Bytes) : List W :=
  let words : List W := (block.blocks (Word.bytes W)).map fun bytes =>
    Word.ofNat bytes.toNatBE
  (extend ((Word.rounds : List W).length - 16) words.reverse).reverse

/-- One round. The chain moves by one place and takes in `input`, the sum of a round
constant and a schedule word. -/
@[specialize] def round (chain : Chain W) (input : W) : Chain W :=
  let ⟨a, b, c, d⟩ := chain.abcd
  let ⟨e, f, g, h⟩ := chain.efgh
  let choice := (e &&& f) ^^^ (~~~e &&& g)
  let majority := (a &&& b) ^^^ (a &&& c) ^^^ (b &&& c)
  let taken := h + Word.bigSigma1 e + choice + input
  ⟨⟨taken + (Word.bigSigma0 a + majority), a, b, c⟩, ⟨d + taken, e, f, g⟩⟩

/-- The chain after one block. -/
@[specialize] def compress (chain : Chain W) (block : Bytes) : Chain W :=
  let inputs :=
    List.zipWith (fun (left right : W) => left + right) Word.rounds (schedule block)
  let result := inputs.foldl round chain
  ⟨chain.abcd.zipWith (· + ·) result.abcd, chain.efgh.zipWith (· + ·) result.efgh⟩

/-- The message with its end mark and its length in bits, in whole blocks. The length
takes the last two words of the last block. -/
def pad (wordBytes : Nat) (message : Bytes) : Bytes :=
  let size := 16 * wordBytes
  let used := message.length + 1 + 2 * wordBytes
  message ++ 0x80 :: Bytes.zeros ((size - used % size) % size) ++
    Bytes.ofNatBE (2 * wordBytes) (8 * message.length)

/-- The chained words as bytes, most significant byte first. -/
@[specialize] def Chain.toBytes (chain : Chain W) : Bytes :=
  (chain.abcd.toList ++ chain.efgh.toList).flatMap fun word =>
    Bytes.ofNatBE (Word.bytes W) (Word.toNat word)

@[specialize] def hash (W : Type) [Word W] (message : Bytes) : Bytes :=
  let initial : Chain W := ⟨Word.first, Word.second⟩
  (((pad (Word.bytes W) message).blocks (16 * Word.bytes W)).foldl compress
    initial).toBytes

/-- The digest has eight words. -/
@[simp] theorem length_hash (message : Bytes) :
    (hash W message).length = 8 * Word.bytes W := by
  simp [hash, Chain.toBytes, Quad.toList]
  omega

end Noise.Sha2

namespace Noise

def sha256 (message : Bytes) : Bytes := Sha2.hash UInt32 message

def sha512 (message : Bytes) : Bytes := Sha2.hash UInt64 message

end Noise
