import Noise.Error
import Noise.Suite

/-!
# Cipher states

A cipher state is a key, if there is one, and a counter of the messages under it.
Without a key, texts pass unchanged. A call that fails tells in which state it stopped.
-/

namespace Noise

/-- The counter value that is never used for a message. -/
def maxNonce : Nat := Bytes.capacity 8 - 1

/-- A key and a message counter. -/
structure CipherState where
  key : Option Bytes := none
  nonce : Int := 0
deriving DecidableEq, Repr

namespace CipherState

/-- The state with a new key, or with none, and the counter at the start. -/
def ofKey (key : Option Bytes) : CipherState := { key }

def hasKey (state : CipherState) : Bool := state.key.isSome

/-- The nonce of the next message. The counter must not be used up, then the
key must have a length that the cipher takes, then the counter must be a number
that a nonce can hold. -/
def nextNonce (cipher : CipherFunction) (key : Bytes) (counter : Int) :
    Except ProtocolError Bytes :=
  if maxNonce ≤ counter then .error .nonceExhausted
  else if !cipher.keyLengths.contains key.length then .error (.cipherKeyLength cipher)
  else (cipher.nonce? counter).mapError .nonce

def encrypt (cipher : CipherFunction) (state : CipherState) (ad plaintext : Bytes) :
    Except (Halt CipherState) (Bytes × CipherState) :=
  match state.key with
  | none => .ok (plaintext, state)
  | some key => do
      let nonce ← haltAt state (nextNonce cipher key state.nonce)
      return (cipher.encrypt key nonce ad plaintext,
        { state with nonce := state.nonce + 1 })

def decrypt (cipher : CipherFunction) (state : CipherState) (ad message : Bytes) :
    Except (Halt CipherState) (Bytes × CipherState) :=
  match state.key with
  | none => .ok (message, state)
  | some key => do
      let nonce ← haltAt state (nextNonce cipher key state.nonce)
      match cipher.decrypt? key nonce ad message with
      | some plaintext => return (plaintext, { state with nonce := state.nonce + 1 })
      | none => throw { state, error := .tagMismatch }

/-- The key after a key: zeros encrypted under the counter value that no message has,
cut to the length of a key. -/
def nextKey (cipher : CipherFunction) (key : Bytes) : Bytes :=
  (cipher.encrypt key (cipher.nonce maxNonce) [] (Bytes.zeros keyLength)).take keyLength

/-- Replaces the key by the next one. The counter stays. -/
def rekey (cipher : CipherFunction) (state : CipherState) :
    Except (Halt CipherState) CipherState :=
  match state.key with
  | none => .ok state
  | some key =>
      if cipher.keyLengths.contains key.length then
        .ok { state with key := some (nextKey cipher key) }
      else .error { state, error := .cipherKeyLength cipher }

@[simp] theorem length_nextKey (cipher : CipherFunction) (key : Bytes) :
    (nextKey cipher key).length = keyLength := by
  simp [nextKey]

end CipherState

end Noise
