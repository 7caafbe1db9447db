/-!
# Byte strings

A byte string is a list of bytes. The module holds the conversions between byte strings
and numbers, in both byte orders, and the two ways in which the primitives walk over a
byte string: bytewise exclusive or, and a cut into blocks of equal length.
-/

namespace Noise

abbrev Bytes := List UInt8

namespace Bytes

/-- A string of `count` zero bytes. -/
def zeros (count : Nat) : Bytes := List.replicate count 0

@[simp] theorem length_zeros (count : Nat) : (zeros count).length = count := by
  simp [zeros]

/-- The string with every byte overwritten by zero. -/
def wipe (bytes : Bytes) : Bytes := zeros bytes.length

/-- Whether every byte is zero. The empty string counts as zero. -/
def isZero (bytes : Bytes) : Bool := bytes.all (· == 0)

/-- The number whose base-256 digits are `bytes`, least significant digit first. -/
def toNatLE : Bytes → Nat
  | [] => 0
  | byte :: rest => byte.toNat + 256 * toNatLE rest

/-- The `count` low base-256 digits of `value`, least significant digit first. -/
def ofNatLE : (count : Nat) → (value : Nat) → Bytes
  | 0, _ => []
  | count + 1, value => UInt8.ofNat value :: ofNatLE count (value / 256)

@[simp] theorem length_ofNatLE (count value : Nat) :
    (ofNatLE count value).length = count := by
  induction count generalizing value with
  | zero => rfl
  | succ count ih => simp [ofNatLE, ih]

/-- How many numbers have `count` base-256 digits. -/
def capacity : (count : Nat) → Nat
  | 0 => 1
  | count + 1 => 256 * capacity count

/-- Reading the digits back gives the value, up to the digits that were cut off. -/
theorem toNatLE_ofNatLE (count value : Nat) :
    toNatLE (ofNatLE count value) = value % capacity count := by
  induction count generalizing value with
  | zero => simp [ofNatLE, toNatLE, capacity, Nat.mod_one]
  | succ count ih => simp [ofNatLE, toNatLE, capacity, ih, Nat.mod_mul]

/-- The number whose base-256 digits are `bytes`, most significant digit first. -/
def toNatBE (bytes : Bytes) : Nat := toNatLE bytes.reverse

/-- The `count` low base-256 digits of `value`, most significant digit first. -/
def ofNatBE (count value : Nat) : Bytes := (ofNatLE count value).reverse

@[simp] theorem length_ofNatBE (count value : Nat) :
    (ofNatBE count value).length = count := by
  simp [ofNatBE]

/-- Bytewise exclusive or, as long as the shorter argument. -/
def xor (left right : Bytes) : Bytes := List.zipWith (· ^^^ ·) left right

@[simp] theorem length_xor (left right : Bytes) :
    (xor left right).length = min left.length right.length := by
  simp [xor]

/-- The first `count` blocks of `size` bytes each. -/
def cut (size : Nat) : (count : Nat) → Bytes → List Bytes
  | 0, _ => []
  | count + 1, bytes => bytes.take size :: cut size count (bytes.drop size)

/-- The cut into blocks of `size` bytes; the last block may be shorter and is
never empty. -/
def blocks (size : Nat) (bytes : Bytes) : List Bytes :=
  cut size ((bytes.length + size - 1) / size) bytes

/-- The place that an integer stands for in a string of `length` bytes: a negative one
counts from the end, and one outside the string is moved to the nearer end. -/
def place (length : Nat) (index : Int) : Nat :=
  min (if index < 0 then index + length else index).toNat length

@[simp] theorem place_ofNat (length index : Nat) :
    place length (index : Int) = min index length := by
  have natural : ¬ (index : Int) < 0 := by omega
  simp [place, natural]

/-- The bytes from one place to another. -/
def slice (bytes : Bytes) (start stop : Int) : Bytes :=
  (bytes.take (place bytes.length stop)).drop (place bytes.length start)

/-- Between two natural numbers, a slice is a run of bytes. -/
theorem slice_ofNat (bytes : Bytes) (start count : Nat) :
    bytes.slice start (start + count : Nat) = (bytes.drop start).take count := by
  simp only [slice, place_ofNat]
  apply List.ext_getElem?
  intro index
  grind

/-- The bytes followed by zeros up to the next multiple of `size`. -/
def padZeros (size : Nat) (bytes : Bytes) : Bytes :=
  bytes ++ zeros ((size - bytes.length % size) % size)

end Bytes

end Noise
