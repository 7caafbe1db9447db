import Noise.Text.Printable

/-!
# Quoted text

The written form of a text in a message: between quotes, with a backslash before what
would end it and before what cannot be seen.
-/

namespace Noise.Text

/-- The last `count` hexadecimal digits of a number. -/
def hexDigits (count value : Nat) : List Char :=
  let digits := Nat.toDigits 16 value
  List.replicate (count - digits.length) '0' ++ digits

/-- A character by its code point, in the shortest of the three forms that holds it. -/
def codePoint (char : Char) : List Char :=
  if char.toNat < 0x100 then '\\' :: 'x' :: hexDigits 2 char.toNat
  else if char.toNat < 0x10000 then '\\' :: 'u' :: hexDigits 4 char.toNat
  else '\\' :: 'U' :: hexDigits 8 char.toNat

/-- A character as it stands between quotes. -/
def escape (quote char : Char) : List Char :=
  if char = quote ∨ char = '\\' then ['\\', char]
  else if char = '\n' then ['\\', 'n']
  else if char = '\r' then ['\\', 'r']
  else if char = '\t' then ['\\', 't']
  else if isPrintable char then [char]
  else codePoint char

/-- The text between quotes. The quotes are single, unless the text has a single quote
and no double quote. -/
def quoted (text : String) : String :=
  let chars := text.toList
  let quote := if chars.contains '\'' && !chars.contains '"' then '"' else '\''
  String.ofList (quote :: chars.flatMap (escape quote) ++ [quote])

end Noise.Text
