import Noise.Error

/-!
# Key pairs

A key pair belongs to a Diffie-Hellman function, and its public key is that of its
private key: both facts are part of the type.
-/

namespace Noise

/-- A private key of a Diffie-Hellman function. -/
structure PrivateKey (dh : DhFunction) where
  bytes : Bytes
  length_bytes : bytes.length = dh.keyLength
deriving DecidableEq, Repr

instance (dh : DhFunction) : Inhabited (PrivateKey dh) :=
  ⟨⟨Bytes.zeros dh.keyLength, Bytes.length_zeros _⟩⟩

/-- A source of private keys for whichever function is asked. -/
abbrev KeyGenerator := (dh : DhFunction) → PrivateKey dh

/-- A key pair and the function it belongs to. -/
structure KeyPair where
  dh : DhFunction
  privateKey : PrivateKey dh
  publicKey : Bytes
  publicKey_eq : publicKey = dh.publicKey privateKey.bytes
deriving DecidableEq, Repr

namespace KeyPair

def ofPrivateKey {dh : DhFunction} (privateKey : PrivateKey dh) : KeyPair where
  dh := dh
  privateKey := privateKey
  publicKey := dh.publicKey privateKey.bytes
  publicKey_eq := rfl

/-- The key pair of a private key given as bytes. -/
def ofBytes (dh : DhFunction) (bytes : Bytes) : Except ProtocolError KeyPair :=
  if length_bytes : bytes.length = dh.keyLength then
    .ok (ofPrivateKey { bytes, length_bytes })
  else .error (.privateKeyLength dh.keyLength bytes.length)

/-- A public key has the length of its function. -/
@[simp] theorem length_publicKey (pair : KeyPair) :
    pair.publicKey.length = pair.dh.keyLength := by
  rw [pair.publicKey_eq, DhFunction.length_publicKey]

/-- The secret shared with the owner of a public key. A key of the wrong length is
refused, and so is one that makes the secret zero. -/
def agree (pair : KeyPair) (publicKey : Bytes) : Except ProtocolError Bytes :=
  if publicKey.length ≠ pair.dh.keyLength then
    .error (.publicKeyLength pair.dh.keyLength publicKey.length)
  else
    let secret := pair.dh.sharedSecret pair.privateKey.bytes publicKey
    if secret.isZero then .error .zeroSecret else .ok secret

end KeyPair

end Noise
