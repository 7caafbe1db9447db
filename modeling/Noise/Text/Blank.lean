/-!
# Blanks, trimming and words

A character class for white space, and the two uses of it: trimming a text at both ends,
and cutting a text into words. Texts are lists of characters here.
-/

namespace Noise.Text

/-- The closed ranges of code points that count as blank. -/
def blankRanges : List (Nat × Nat) :=
  [(0x9, 0xd), (0x1c, 0x20), (0x85, 0x85), (0xa0, 0xa0), (0x1680, 0x1680),
    (0x2000, 0x200a),
   (0x2028, 0x2029), (0x202f, 0x202f), (0x205f, 0x205f), (0x3000, 0x3000)]

def isBlank (char : Char) : Bool :=
  blankRanges.any fun range => range.1 ≤ char.toNat && char.toNat ≤ range.2

/-- The text without its leading blanks. -/
def trimLeft (text : List Char) : List Char := text.dropWhile isBlank

/-- The text without its leading and trailing blanks. -/
def trim (text : List Char) : List Char := (trimLeft (trimLeft text).reverse).reverse

/-- The word that the text starts with, which may be empty, and the words after it. -/
def splitFirst (separator : Char → Bool) : List Char → List Char × List (List Char)
  | [] => ([], [])
  | char :: rest =>
      let (word, others) := splitFirst separator rest
      if separator char then ([], if word.isEmpty then others else word :: others)
      else (char :: word, others)

/-- The longest stretches without a separator, in order. No word is empty. -/
def words (separator : Char → Bool) (text : List Char) : List (List Char) :=
  let (word, others) := splitFirst separator text
  if word.isEmpty then others else word :: others

end Noise.Text
