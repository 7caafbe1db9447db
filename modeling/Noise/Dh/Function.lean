import Noise.Dh.Montgomery

/-!
# Diffie-Hellman functions of a suite
-/

namespace Noise

/-- A Diffie-Hellman function, as named in a protocol name. -/
inductive DhFunction where
  | curve25519
  | curve448
deriving DecidableEq, Repr

namespace DhFunction

def all : List DhFunction := [.curve25519, .curve448]

def name : DhFunction → String
  | .curve25519 => "25519"
  | .curve448 => "448"

def ofName? (name : String) : Option DhFunction := all.find? (·.name == name)

/-- The curve that the function computes on. -/
def curve : DhFunction → Curve
  | .curve25519 => .x25519
  | .curve448 => .x448

/-- Length of private keys, public keys and shared secrets in bytes. -/
def keyLength (function : DhFunction) : Nat := function.curve.keyLength

def publicKey (function : DhFunction) (privateKey : Bytes) : Bytes :=
  function.curve.scalarMult privateKey function.curve.base

/-- The secret shared between a private key and the owner of a public key. -/
def sharedSecret (function : DhFunction) (privateKey publicKey : Bytes) : Bytes :=
  function.curve.scalarMult privateKey (function.curve.coordinate publicKey)

@[simp] theorem length_publicKey (function : DhFunction) (privateKey : Bytes) :
    (function.publicKey privateKey).length = function.keyLength := by
  simp [publicKey, keyLength]

@[simp] theorem length_sharedSecret (function : DhFunction)
    (privateKey publicKey : Bytes) :
    (function.sharedSecret privateKey publicKey).length = function.keyLength := by
  simp [sharedSecret, keyLength]

end DhFunction

end Noise
