import Noise.Text.Quoted

/-!
# Loose values

Patterns may arrive as loosely structured data: texts, numbers, lists and records nested
in any way. `Value` is that data, with the two forms in which a message shows it: as
plain text, and as a literal in which texts stand in quotes.
-/

namespace Noise

/-- A loosely structured value. -/
inductive Value where
  | null
  | bool (value : Bool)
  | int (value : Int)
  /-- The number `mantissa / 10 ^ places`. -/
  | decimal (mantissa : Int) (places : Nat)
  | text (value : String)
  | list (items : List Value)
  /-- Named fields, in order. -/
  | record (fields : List (String × Value))
deriving Repr, BEq, Inhabited

namespace Value

def kind : Value → String
  | .null => "NoneType"
  | .bool _ => "bool"
  | .int _ => "int"
  | .decimal .. => "float"
  | .text _ => "str"
  | .list _ => "list"
  | .record _ => "dict"

/-- A decimal number in positional form, with at least one digit on each side
of the point. -/
def decimalText (mantissa : Int) (places : Nat) : String :=
  let digits := Nat.toDigits 10 mantissa.natAbs
  let full := List.replicate (places + 1 - digits.length) '0' ++ digits
  let point := full.length - places
  let fraction := full.drop point
  String.ofList ((if mantissa < 0 then ['-'] else []) ++ full.take point ++
    '.' :: (if fraction.isEmpty then ['0'] else fraction))

mutual

def literal : Value → String
  | .null => "None"
  | .bool true => "True"
  | .bool false => "False"
  | .int value => toString value
  | .decimal mantissa places => decimalText mantissa places
  | .text value => Text.quoted value
  | .list items => "[" ++ ", ".intercalate (literals items) ++ "]"
  | .record fields => "\x7b" ++ ", ".intercalate (fieldLiterals fields) ++ "\x7d"

def literals : List Value → List String
  | [] => []
  | item :: rest => literal item :: literals rest

def fieldLiterals : List (String × Value) → List String
  | [] => []
  | (name, value) :: rest =>
      (Text.quoted name ++ ": " ++ literal value) :: fieldLiterals rest

end

/-- The plain text of a value: a text itself, anything else as a literal. -/
def plain : Value → String
  | .text value => value
  | value => value.literal

/-- Whether a value counts as empty: null, false, zero, and the text, list and
record without content. -/
def isEmpty : Value → Bool
  | .null => true
  | .bool value => !value
  | .int value => value == 0
  | .decimal mantissa _ => mantissa == 0
  | .text value => value.isEmpty
  | .list items => items.isEmpty
  | .record fields => fields.isEmpty

/-- The items that a value consists of: those of a list, the characters of a text, the
names of the fields of a record. Other values have none. -/
def items? : Value → Option (List Value)
  | .text value => some (value.toList.map fun char => .text (String.singleton char))
  | .list items => some items
  | .record fields => some (fields.map fun field => .text field.1)
  | _ => none

/-- Whether a value can name an entry of a table. Lists and records cannot. -/
def isName : Value → Bool
  | .list _ | .record _ => false
  | _ => true

end Value

end Noise
