import Noise.Hash.Function

/-!
# HMAC and HKDF

Key derivation by extraction and expansion. `hkdf` derives one stream of key material
and cuts it into digests; the cut is what a protocol uses as separate keys.
-/

namespace Noise.HashFunction

/-- The key of a message authentication code, brought to the length of a block: a longer
key is hashed first, and zeros fill what is left. -/
def blockKey (function : HashFunction) (key : Bytes) : Bytes :=
  let short := if key.length ≤ function.blockLength then key else function.digest key
  short ++ Bytes.zeros (function.blockLength - short.length)

/-- The code of a message under a key. -/
def hmac (function : HashFunction) (key message : Bytes) : Bytes :=
  let full := function.blockKey key
  function.digest (full.map (· ^^^ 0x5c) ++
    function.digest (full.map (· ^^^ 0x36) ++ message))

@[simp] theorem length_hmac (function : HashFunction) (key message : Bytes) :
    (function.hmac key message).length = function.length := by
  simp [hmac]

/-- The pseudorandom key extracted from input key material under a salt. -/
def extract (function : HashFunction) (salt material : Bytes) : Bytes :=
  function.hmac salt material

/-- The next `count` blocks of an expansion. Each is the code of the block before it,
the context and the number of the block. -/
def expandBlocks (function : HashFunction) (key info : Bytes) :
    (count : Nat) → (number : Nat) → (previous : Bytes) → List Bytes
  | 0, _, _ => []
  | count + 1, number, previous =>
      let block := function.hmac key (previous ++ info ++ [UInt8.ofNat number])
      block :: expandBlocks function key info count (number + 1) block

/-- The first `length` bytes of the expansion of a pseudorandom key. -/
def expand (function : HashFunction) (key info : Bytes) (length : Nat) : Bytes :=
  let count := (length + function.length - 1) / function.length
  (function.expandBlocks key info count 1 []).flatten.take length

/-- `outputs` values of the length of a digest, derived from a chaining key
and input key material: one stream of that total length, cut at the multiples
of the digest length. -/
def hkdf (function : HashFunction) (chainingKey material : Bytes) (outputs : Nat) :
    Vector Bytes outputs :=
  let stream := function.expand (function.extract chainingKey material) []
    (function.length * outputs)
  Vector.ofFn fun place =>
    (stream.drop (place.val * function.length)).take function.length

end Noise.HashFunction

namespace Noise

/-- Why a number of outputs cannot be derived. -/
inductive HkdfError where
  /-- More outputs than block numbers. -/
  | tooMany (function : HashFunction)
  /-- A total length of more than eight bytes. -/
  | tooLarge
  /-- A negative number of outputs. -/
  | negative
deriving DecidableEq, Repr

namespace HkdfError

def message : HkdfError → String
  | .tooMany function =>
      s!"Cannot derive keys larger than {255 * function.length} octets."
  | .tooLarge => "int too big to convert"
  | .negative => "can't convert negative int to unsigned"

end HkdfError

/-- The outputs for any requested number, or the reason why there are none. The
total length is a number of eight bytes, and a block number is one byte, so 255
outputs are the most. -/
def HashFunction.hkdf? (function : HashFunction) (chainingKey material : Bytes)
    (outputs : Int) :
    Except HkdfError (List Bytes) :=
  if outputs < 0 then .error .negative
  else if Bytes.capacity 8 ≤ function.length * outputs then .error .tooLarge
  else if 255 < outputs then .error (.tooMany function)
  else .ok (function.hkdf chainingKey material outputs.toNat).toList

end Noise
