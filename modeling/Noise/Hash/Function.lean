import Noise.Hash.Blake2
import Noise.Hash.Sha2

/-!
# Hash functions of a suite

The four hash functions that a protocol name may carry, with their digest and
block lengths.
-/

namespace Noise

/-- A hash function, as named in a protocol name. -/
inductive HashFunction where
  | blake2s
  | blake2b
  | sha256
  | sha512
deriving DecidableEq, Repr

namespace HashFunction

def all : List HashFunction := [.blake2s, .blake2b, .sha256, .sha512]

def name : HashFunction → String
  | .blake2s => "BLAKE2s"
  | .blake2b => "BLAKE2b"
  | .sha256 => "SHA256"
  | .sha512 => "SHA512"

def ofName? (name : String) : Option HashFunction := all.find? (·.name == name)

/-- Length of a digest in bytes. -/
def length : HashFunction → Nat
  | .blake2s | .sha256 => 32
  | .blake2b | .sha512 => 64

/-- Length of a block of the compression in bytes. -/
def blockLength : HashFunction → Nat
  | .blake2s | .sha256 => 64
  | .blake2b | .sha512 => 128

def digest : HashFunction → Bytes → Bytes
  | .blake2s => Noise.blake2s
  | .blake2b => Noise.blake2b
  | .sha256 => Noise.sha256
  | .sha512 => Noise.sha512

/-- Every digest has the function's length. -/
@[simp] theorem length_digest (function : HashFunction) (message : Bytes) :
    (function.digest message).length = function.length := by
  cases function <;>
    simp [digest, length, Noise.blake2s, Noise.blake2b, Noise.sha256, Noise.sha512,
      Blake2.Word.bytes, Sha2.Word.bytes]

end HashFunction

end Noise
