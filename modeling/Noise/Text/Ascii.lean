import Noise.Bytes
import Noise.Text.Quoted

/-!
# ASCII text as bytes

A text of ASCII characters is a byte string, one byte a character. For any other text
the error tells the first stretch of characters that have no byte.
-/

namespace Noise.Text

def isAscii (char : Char) : Bool := char.toNat < 128

/-- The bytes of an ASCII text. -/
def toBytes (text : String) : Bytes :=
  text.toList.map fun char => UInt8.ofNat char.toNat

/-- A stretch of characters outside ASCII: its position and its characters. -/
structure NotAscii where
  position : Nat
  first : Char
  length : Nat
deriving DecidableEq, Repr

def NotAscii.message (error : NotAscii) : String :=
  if error.length = 1 then
    s!"'ascii' codec can't encode character '{String.ofList (codePoint error.first)}' " ++
      s!"in position {error.position}: ordinal not in range(128)"
  else
    s!"'ascii' codec can't encode characters in position " ++
      s!"{error.position}-{error.position + error.length - 1}: ordinal not in range(128)"

/-- The bytes of a text, if it is ASCII. -/
def ascii? (text : String) : Except NotAscii Bytes :=
  match text.toList.dropWhile isAscii with
  | [] => .ok (toBytes text)
  | first :: rest =>
      .error
        { position := (text.toList.takeWhile isAscii).length
          first := first
          length := (rest.takeWhile fun char => !isAscii char).length + 1 }

end Noise.Text
