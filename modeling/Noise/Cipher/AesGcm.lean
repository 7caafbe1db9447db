import Noise.Cipher.Aes
import Noise.Cipher.CounterMode

/-!
# AES-GCM

The block cipher in counter mode from block 2, authenticated by a polynomial code over
the field of 2¹²⁸ elements. Field elements are numbers whose most significant bit is
the constant coefficient.
-/

namespace Noise

namespace Ghash

/-- The product of the `count` low-order coefficients of `left` with `right`, added to
`sum`. Coefficients are taken from the most significant bit on; `right` is multiplied by
the variable at each step. -/
def multiply : (count : Nat) → (left right sum : Nat) → Nat
  | 0, _, _, sum => sum
  | count + 1, left, right, sum =>
      multiply count left
        (if right % 2 = 1 then (right / 2) ^^^ (0xe1 <<< 120) else right / 2)
        (if left.testBit count then sum ^^^ right else sum)

def product (left right : Nat) : Nat := multiply 128 left right 0

/-- The code of whole blocks: a polynomial with the blocks as coefficients,
evaluated at `point`. -/
def hash (point : Nat) (message : Bytes) : Nat :=
  (message.blocks 16).foldl (fun sum block => product (sum ^^^ block.toNatBE) point) 0

end Ghash

namespace AesGcm

/-- The numbered block that is encrypted for the key stream. -/
def counterBlock (nonce : Bytes) (number : Nat) : Bytes :=
  nonce ++ Bytes.ofNatBE 4 number

/-- The text combined with the key stream. -/
def crypt (key nonce text : Bytes) : Bytes :=
  let keys := Aes.roundKeys key
  CounterMode.apply 16
    (fun number => Aes.block keys (counterBlock nonce (number + 2))) text

/-- What the tag covers: associated data and ciphertext, each filled up to whole blocks,
and both lengths in bits. -/
def covered (ad ciphertext : Bytes) : Bytes :=
  ad.padZeros 16 ++ ciphertext.padZeros 16 ++
    Bytes.ofNatBE 8 (8 * ad.length) ++ Bytes.ofNatBE 8 (8 * ciphertext.length)

/-- The tag of associated data and ciphertext. -/
def tag (key nonce ad ciphertext : Bytes) : Bytes :=
  let keys := Aes.roundKeys key
  let point := (Aes.block keys (Bytes.zeros 16)).toNatBE
  let mask := (Aes.block keys (counterBlock nonce 1)).toNatBE
  Bytes.ofNatBE 16 (Ghash.hash point (covered ad ciphertext) ^^^ mask)

@[simp] theorem length_tag (key nonce ad ciphertext : Bytes) :
    (tag key nonce ad ciphertext).length = 16 := by
  simp [tag]

@[simp] theorem length_crypt (key nonce text : Bytes) :
    (crypt key nonce text).length = text.length :=
  CounterMode.length_apply (by decide) (by simp) text

@[simp] theorem crypt_crypt (key nonce text : Bytes) :
    crypt key nonce (crypt key nonce text) = text :=
  CounterMode.apply_apply (by decide) (by simp) text

end AesGcm

end Noise
