/-!
# Rotation of machine words
-/

namespace Noise

/-- The word moved to the right by `count` bits; what leaves on the right
enters on the left. -/
@[inline] def rotateRight32 (word count : UInt32) : UInt32 :=
  (word >>> count) ||| (word <<< (32 - count))

/-- The word moved to the right by `count` bits; what leaves on the right
enters on the left. -/
@[inline] def rotateRight64 (word count : UInt64) : UInt64 :=
  (word >>> count) ||| (word <<< (64 - count))

/-- The word moved to the left by `count` bits; what leaves on the left
enters on the right. -/
@[inline] def rotateLeft32 (word count : UInt32) : UInt32 :=
  (word <<< count) ||| (word >>> (32 - count))

end Noise
