import Noise.Cipher.ChaCha20
import Noise.Cipher.CounterMode

/-!
# ChaCha20-Poly1305

The stream cipher in counter mode from block 1, authenticated by a polynomial code whose
one-time key is block 0.
-/

namespace Noise

namespace Poly1305

/-- The prime of the field. -/
def prime : Nat := (1 <<< 130) - 5

/-- The bits of the multiplier that are kept. -/
def clamp (value : Nat) : Nat := value &&& 0x0ffffffc0ffffffc0ffffffc0fffffff

/-- The code of a message under a one-time key of 32 bytes. Each block is a number with
a one above its last byte; the blocks are the coefficients of a polynomial, evaluated at
the first half of the key and added to the second. -/
def tag (key message : Bytes) : Bytes :=
  let multiplier := clamp (Bytes.toNatLE (key.take 16))
  let sum := (message.blocks 16).foldl
    (fun sum block => (sum + Bytes.toNatLE (block ++ [1])) * multiplier % prime) 0
  Bytes.ofNatLE 16 (sum + Bytes.toNatLE (key.drop 16))

@[simp] theorem length_tag (key message : Bytes) : (tag key message).length = 16 := by
  simp [tag]

end Poly1305

namespace ChaChaPoly

/-- The text combined with the key stream. -/
def crypt (key nonce text : Bytes) : Bytes :=
  CounterMode.apply 64 (fun number => ChaCha20.block key nonce (number + 1)) text

/-- What the tag covers: associated data and ciphertext, each filled up to whole
blocks, and both lengths. -/
def covered (ad ciphertext : Bytes) : Bytes :=
  ad.padZeros 16 ++ ciphertext.padZeros 16 ++
    Bytes.ofNatLE 8 ad.length ++ Bytes.ofNatLE 8 ciphertext.length

/-- The tag of associated data and ciphertext. -/
def tag (key nonce ad ciphertext : Bytes) : Bytes :=
  Poly1305.tag ((ChaCha20.block key nonce 0).take 32) (covered ad ciphertext)

@[simp] theorem length_tag (key nonce ad ciphertext : Bytes) :
    (tag key nonce ad ciphertext).length = 16 := by
  simp [tag]

@[simp] theorem length_crypt (key nonce text : Bytes) :
    (crypt key nonce text).length = text.length :=
  CounterMode.length_apply (by decide) (by simp) text

@[simp] theorem crypt_crypt (key nonce text : Bytes) :
    crypt key nonce (crypt key nonce text) = text :=
  CounterMode.apply_apply (by decide) (by simp) text

end ChaChaPoly

end Noise
