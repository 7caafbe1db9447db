import Noise.Bytes

/-!
# Counter mode

A text is combined with a stream of numbered key blocks. Applying the same
stream twice gives the text back, whatever the blocks are, as long as each block
has the announced size.
-/

namespace Noise.CounterMode

/-- The first `count` blocks of a stream, in order. -/
def stream (block : Nat → Bytes) (count : Nat) : Bytes :=
  (List.range count).flatMap block

/-- The text combined with as many blocks of the stream as cover it. -/
def apply (size : Nat) (block : Nat → Bytes) (text : Bytes) : Bytes :=
  text.xor (stream block ((text.length + size - 1) / size))

theorem length_stream {size : Nat} {block : Nat → Bytes}
    (sized : ∀ n, (block n).length = size) (count : Nat) :
    (stream block count).length = count * size := by
  simp only [stream, List.length_flatMap, sized, List.map_const', List.length_range,
    List.sum_replicate_nat]

/-- The blocks that are taken cover the text. -/
theorem length_le_stream {size : Nat} {block : Nat → Bytes} (positive : 0 < size)
    (sized : ∀ n, (block n).length = size) (text : Bytes) :
    text.length ≤ (stream block ((text.length + size - 1) / size)).length := by
  rw [length_stream sized]
  have split := Nat.div_add_mod (text.length + size - 1) size
  have small := Nat.mod_lt (text.length + size - 1) positive
  rw [Nat.mul_comm] at split
  omega

/-- Counter mode keeps the length. -/
theorem length_apply {size : Nat} {block : Nat → Bytes} (positive : 0 < size)
    (sized : ∀ n, (block n).length = size) (text : Bytes) :
    (apply size block text).length = text.length := by
  have covered := length_le_stream positive sized text
  simp only [apply, Bytes.length_xor]
  omega

/-- A stream that covers the text undoes itself. -/
theorem xor_xor (text : Bytes) : ∀ (key : Bytes), text.length ≤ key.length →
    (text.xor key).xor key = text := by
  induction text with
  | nil => simp [Bytes.xor]
  | cons byte rest ih =>
      intro key covered
      cases key with
      | nil => simp at covered
      | cons head tail =>
          have undone := ih tail (by simpa using covered)
          simp only [Bytes.xor] at undone
          simp only [Bytes.xor, List.zipWith_cons_cons, undone, UInt8.xor_assoc,
            UInt8.xor_self, UInt8.xor_zero]

/-- Counter mode is its own inverse. -/
theorem apply_apply {size : Nat} {block : Nat → Bytes} (positive : 0 < size)
    (sized : ∀ n, (block n).length = size) (text : Bytes) :
    apply size block (apply size block text) = text := by
  have same := length_apply positive sized text
  rw [apply, same]
  exact xor_xor text _ (length_le_stream positive sized text)

end Noise.CounterMode
