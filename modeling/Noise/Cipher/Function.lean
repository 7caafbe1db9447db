import Noise.Cipher.AesGcm
import Noise.Cipher.ChaChaPoly

/-!
# Ciphers of a suite

The two authenticated ciphers that a protocol name may carry. Main statements:
encryption adds the length of a tag, and decryption accepts what encryption made
and gives the text back.
-/

namespace Noise

/-- Length of an authentication tag in bytes. -/
def tagLength : Nat := 16

/-- An authenticated cipher, as named in a protocol name. -/
inductive CipherFunction where
  | chaChaPoly
  | aesGcm
deriving DecidableEq, Repr

/-- Why a counter has no nonce. -/
inductive NonceError where
  | negative
  | tooLarge
deriving DecidableEq, Repr

namespace NonceError

def message : NonceError → String
  | .negative => "can't convert negative int to unsigned"
  | .tooLarge => "int too big to convert"

end NonceError

namespace CipherFunction

def all : List CipherFunction := [.chaChaPoly, .aesGcm]

def name : CipherFunction → String
  | .chaChaPoly => "ChaChaPoly"
  | .aesGcm => "AESGCM"

def ofName? (name : String) : Option CipherFunction := all.find? (·.name == name)

/-- The key lengths that a cipher takes. -/
def keyLengths : CipherFunction → List Nat
  | .chaChaPoly => [32]
  | .aesGcm => [16, 24, 32]

/-- The nonce of a counter: four zero bytes and the counter in eight, in the
cipher's byte order. -/
def nonce : CipherFunction → (counter : Nat) → Bytes
  | .chaChaPoly, counter => Bytes.zeros 4 ++ Bytes.ofNatLE 8 counter
  | .aesGcm, counter => Bytes.zeros 4 ++ Bytes.ofNatBE 8 counter

/-- The nonce of any number, or the reason why it has none. -/
def nonce? (cipher : CipherFunction) (counter : Int) : Except NonceError Bytes :=
  if counter < 0 then .error .negative
  else if Bytes.capacity 8 ≤ counter then .error .tooLarge
  else .ok (cipher.nonce counter.toNat)

/-- The text combined with the cipher's key stream. -/
def crypt : CipherFunction → (key nonce text : Bytes) → Bytes
  | .chaChaPoly => ChaChaPoly.crypt
  | .aesGcm => AesGcm.crypt

/-- The tag of associated data and ciphertext. -/
def tag : CipherFunction → (key nonce ad ciphertext : Bytes) → Bytes
  | .chaChaPoly => ChaChaPoly.tag
  | .aesGcm => AesGcm.tag

@[simp] theorem length_crypt (cipher : CipherFunction) (key nonce text : Bytes) :
    (cipher.crypt key nonce text).length = text.length := by
  cases cipher <;> simp [crypt]

@[simp] theorem crypt_crypt (cipher : CipherFunction) (key nonce text : Bytes) :
    cipher.crypt key nonce (cipher.crypt key nonce text) = text := by
  cases cipher <;> simp [crypt]

@[simp] theorem length_tag (cipher : CipherFunction) (key nonce ad ciphertext : Bytes) :
    (cipher.tag key nonce ad ciphertext).length = tagLength := by
  cases cipher <;> simp [tag, tagLength]

/-- The ciphertext of a text, followed by its tag. -/
def encrypt (cipher : CipherFunction) (key nonce ad plaintext : Bytes) : Bytes :=
  let ciphertext := cipher.crypt key nonce plaintext
  ciphertext ++ cipher.tag key nonce ad ciphertext

/-- The text of an encrypted message, if its tag is right. -/
def decrypt? (cipher : CipherFunction) (key nonce ad message : Bytes) : Option Bytes :=
  if message.length < tagLength then none
  else
    let ciphertext := message.take (message.length - tagLength)
    if message.drop (message.length - tagLength) = cipher.tag key nonce ad ciphertext
    then some (cipher.crypt key nonce ciphertext)
    else none

/-- Encryption adds the length of a tag. -/
@[simp] theorem length_encrypt (cipher : CipherFunction)
    (key nonce ad plaintext : Bytes) :
    (cipher.encrypt key nonce ad plaintext).length = plaintext.length + tagLength := by
  simp [encrypt]

/-- Decryption accepts what encryption made and gives the text back. -/
@[simp] theorem decrypt?_encrypt (cipher : CipherFunction)
    (key nonce ad plaintext : Bytes) :
    cipher.decrypt? key nonce ad (cipher.encrypt key nonce ad plaintext) =
      some plaintext := by
  have whole := length_encrypt cipher key nonce ad plaintext
  have start : (cipher.encrypt key nonce ad plaintext).take plaintext.length =
      cipher.crypt key nonce plaintext := by
    simp [encrypt]
  have rest : (cipher.encrypt key nonce ad plaintext).drop plaintext.length =
      cipher.tag key nonce ad (cipher.crypt key nonce plaintext) := by
    simp [encrypt]
  simp [decrypt?, whole, start, rest]

/-- An accepted message is longer than its text by the length of a tag. -/
theorem length_of_decrypt? {cipher : CipherFunction}
    {key nonce ad message plaintext : Bytes}
    (accepted : cipher.decrypt? key nonce ad message = some plaintext) :
    message.length = plaintext.length + tagLength := by
  simp only [decrypt?] at accepted
  split at accepted
  · simp at accepted
  · split at accepted
    · simp only [Option.some.injEq] at accepted
      subst accepted
      simp
      omega
    · simp at accepted

end CipherFunction

end Noise
