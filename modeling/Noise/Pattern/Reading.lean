import Noise.Pattern.Draft
import Noise.Text.Blank
import Noise.Text.LowerCase

/-!
# Reading tokens and directions

Terms are read from loose values: in any case, with blanks around them, and several
tokens from one text in which commas and blanks stand between them.
-/

namespace Noise

/-- Why loose data cannot be read as a pattern. -/
inductive ReadError where
  /-- The data can be walked through, but what it says is no pattern. -/
  | malformed (cause : Malformed)
  /-- A list was expected, and the value has no items. -/
  | noItems (got : Value)
  /-- A list was to be searched, and the value has no items. -/
  | noMembers (got : Value)
  /-- A line was expected, and the value is no text. -/
  | notText (got : Value)
deriving Repr

namespace ReadError

def message : ReadError → String
  | .malformed cause => cause.message
  | .noItems got => s!"'{got.kind}' object is not iterable"
  | .noMembers got => s!"argument of type '{got.kind}' is not iterable"
  | .notText got => s!"'{got.kind}' object has no attribute 'strip'"

end ReadError

namespace Text

/-- A spelling without the blanks around it and in lower case. -/
def spelling (text : List Char) : List Char := (trim text).map lower

end Text

/-- The token of that spelling, if there is one. -/
def Token.ofSpelling? (text : String) : Option Token :=
  Token.all.find? fun token => token.name.toList == Text.spelling text.toList

/-- The direction of that spelling, if there is one. -/
def Direction.ofSpelling? (text : String) : Option Direction :=
  Direction.all.find? fun direction =>
    direction.name.toList == Text.spelling text.toList

namespace Stray

/-- The token that an object spells as plain text. -/
def toToken (object : Stray) : Except Malformed Token :=
  match Token.ofSpelling? object.plain with
  | some token => .ok token
  | none => .error (.unknownToken object)

/-- The direction that an object spells as plain text. -/
def toDirection (object : Stray) : Except Malformed Direction :=
  match Direction.ofSpelling? object.plain with
  | some direction => .ok direction
  | none => .error (.unknownDirection object)

end Stray

namespace Value

/-- The token that a value spells. Only a text spells one. -/
def toToken (value : Value) : Except Malformed Token :=
  match value with
  | .text _ => value.toStray.toToken
  | _ => .error (.unknownToken value.toStray)

/-- The direction that a value spells. Only a text spells one. -/
def toDirection (value : Value) : Except Malformed Direction :=
  match value with
  | .text _ => value.toStray.toDirection
  | _ => .error (.unknownDirection value.toStray)

end Value

/-- Whether a character stands between tokens. -/
def isTokenSeparator (char : Char) : Bool := char == ',' || Text.isBlank char

/-- The words of a text that lists tokens. -/
def tokenWords (text : String) : List String :=
  (Text.words isTokenSeparator text.toList).map String.ofList

/-- The tokens that a text lists. -/
def readTokenText (text : String) : Except Malformed (List Token) :=
  (tokenWords text).mapM fun word => (Value.text word).toToken

/-- The tokens that a value lists: the words of a text, or the items of any
other value. -/
def readTokens (value : Value) : Except ReadError (List Token) :=
  match value with
  | .text text => (readTokenText text).mapError .malformed
  | _ =>
      match value.items? with
      | some items => (items.mapM Value.toToken).mapError .malformed
      | none => .error (.noItems value)

namespace Word

/-- The token of a word; a stray object is read by its spelling. -/
def readToken : Word Token → Except Malformed Token
  | .term token => .ok token
  | .stray object => object.toToken

/-- The direction of a word; a stray object is read by its spelling. -/
def readDirection : Word Direction → Except Malformed Direction
  | .term direction => .ok direction
  | .stray object => object.toDirection

end Word

/-- The row with its stray objects read by their spellings. -/
def Row.readWords (row : DraftRow) : Except Malformed Message := do
  let direction ← row.direction.readDirection
  let tokens ← row.tokens.mapM Word.readToken
  return { direction, tokens }

/-- The draft with its stray objects read by their spellings. -/
def Draft.readWords (draft : Draft) : Except Malformed Draft := do
  let preMessages ← draft.preMessages.mapM Row.readWords
  let messages ← draft.messages.mapM Row.readWords
  return Draft.ofRows draft.name preMessages messages

end Noise
