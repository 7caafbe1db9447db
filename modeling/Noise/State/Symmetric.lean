import Noise.State.Cipher

/-!
# Symmetric states

The running hash of everything sent, the chaining key, and the cipher that the
chaining key gives rise to.
-/

namespace Noise

/-- The transcript of a handshake. -/
structure SymmetricState where
  /-- The hash of the transcript. -/
  h : Bytes
  /-- The chaining key. -/
  ck : Bytes
  cipher : CipherState := {}
deriving DecidableEq, Repr

namespace SymmetricState

/-- The state before any name is given: all zeros. -/
def blank (suite : Suite) : SymmetricState where
  h := Bytes.zeros suite.hash.length
  ck := Bytes.zeros suite.hash.length

/-- The hash that a protocol name starts a transcript with. A name that fits is filled
up with zeros, and a longer one is hashed. -/
def nameHash (suite : Suite) (name : Bytes) : Bytes :=
  if name.length ≤ suite.hash.length then name ++
    Bytes.zeros (suite.hash.length - name.length)
  else suite.hash.digest name

/-- The state at the start of a protocol. -/
def start (suite : Suite) (name : Bytes) : SymmetricState where
  h := nameHash suite name
  ck := nameHash suite name

def hasKey (state : SymmetricState) : Bool := state.cipher.hasKey

/-- Takes data into the hash. -/
def mixHash (suite : Suite) (state : SymmetricState) (data : Bytes) : SymmetricState :=
  { state with h := suite.hash.digest (state.h ++ data) }

/-- Takes a secret into the chaining key and gives the cipher a new key. -/
def mixKey (suite : Suite) (state : SymmetricState) (secret : Bytes) : SymmetricState :=
  let derived := suite.hash.hkdf state.ck secret 2
  { state with ck := derived[0], cipher := .ofKey (some (derived[1].take keyLength)) }

/-- Takes a secret into the chaining key and the hash, and gives the cipher a
new key. -/
def mixKeyAndHash (suite : Suite) (state : SymmetricState) (secret : Bytes) :
    SymmetricState :=
  let derived := suite.hash.hkdf state.ck secret 3
  { state.mixHash suite derived[1] with
    ck := derived[0], cipher := .ofKey (some (derived[2].take keyLength)) }

/-- The result of a call of the cipher; a failure stops the transcript with the
cipher that it left. -/
def attemptCipher {α : Type} (state : SymmetricState)
    (result : Except (Halt CipherState) α) :
    Except (Halt SymmetricState) α :=
  result.mapError (Halt.map fun cipher => { state with cipher })

/-- Encrypts a text with the hash as associated data, and takes the result
into the hash. -/
def encryptAndHash (suite : Suite) (state : SymmetricState) (plaintext : Bytes) :
    Except (Halt SymmetricState) (Bytes × SymmetricState) := do
  let (ciphertext, cipher) ← state.attemptCipher
      (state.cipher.encrypt suite.cipher state.h plaintext)
  return (ciphertext, { state with cipher }.mixHash suite ciphertext)

/-- Decrypts a message with the hash as associated data, and takes the
message into the hash. -/
def decryptAndHash (suite : Suite) (state : SymmetricState) (message : Bytes) :
    Except (Halt SymmetricState) (Bytes × SymmetricState) := do
  let (plaintext, cipher) ← state.attemptCipher
      (state.cipher.decrypt suite.cipher state.h message)
  return (plaintext, { state with cipher }.mixHash suite message)

/-- The two transport ciphers. -/
def split (suite : Suite) (state : SymmetricState) : CipherState × CipherState :=
  let derived := suite.hash.hkdf state.ck [] 2
  (.ofKey (some (derived[0].take keyLength)), .ofKey (some (derived[1].take keyLength)))

/-- The state with its secrets overwritten. -/
def clear (state : SymmetricState) : SymmetricState where
  h := state.h.wipe
  ck := state.ck.wipe

end SymmetricState

end Noise
