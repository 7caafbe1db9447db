import Noise.Pattern.Vocabulary
import Noise.Value

/-!
# Malformed patterns

The causes for which a pattern is refused, and their texts. A text shows the
offending value as a literal.
-/

namespace Noise

inductive RowKind where
  | preMessage
  | message
deriving DecidableEq, Repr

namespace RowKind

def name : RowKind → String
  | .preMessage => "pre-message"
  | .message => "message"

end RowKind

/-- A loose value in the place of a term. -/
def Value.toStray (value : Value) : Stray where
  kind := value.kind
  plain := value.plain
  literal := value.literal

/-- A text in the place of a term. -/
def Stray.ofText (text : String) : Stray := (Value.text text).toStray

/-- Why a pattern is malformed. -/
inductive Malformed where
  | notARecord (got : Value)
  | missingField (name : String)
  | rowNotARecord (kind : RowKind) (got : Value)
  | rowWithoutTokens (kind : RowKind)
  | unknownDirection (got : Stray)
  | unknownToken (got : Stray)
  | noArrow (line : String)
  | emptyName
  | noMessages (name : Value)
  /-- The words of a pre-message, as they are shown. -/
  | preMessageTokens (got : List String)
  | noFinalMessage (name : Value)
deriving Repr

namespace Malformed

def message : Malformed → String
  | .notARecord got => s!"Pattern record must be a mapping, got {got.literal}"
  | .missingField name => s!"Pattern record missing field: {name}"
  | .rowNotARecord kind got =>
      s!"Pattern {kind.name} must be a record, got {got.literal}"
  | .rowWithoutTokens kind => s!"Pattern {kind.name} missing field: tokens"
  | .unknownDirection got => s!"Unrecognized direction: {got.literal}"
  | .unknownToken got => s!"Unrecognized token: {got.literal}"
  | .noArrow line => s!"Line must start with -> or <-: {Text.quoted line}"
  | .emptyName => "Pattern name is empty"
  | .noMessages name => s!"Pattern {name.plain} has no messages"
  | .preMessageTokens got =>
      "Pre-message tokens must be e, s or e, s; got [" ++ ", ".intercalate got ++ "]"
  | .noFinalMessage name => s!"Pattern {name.plain} has no final key-exchange message"

end Malformed

/-- Why a draft is refused. -/
inductive DraftError where
  | malformed (cause : Malformed)
  /-- A pre-message holds a wrong word, and the refusal cannot be put into words: the
  object at that place holds a value that is no text, but something of that kind. -/
  | unnamed (place : Nat) (kind : String)
deriving Repr

namespace DraftError

def message : DraftError → String
  | .malformed cause => cause.message
  | .unnamed place kind =>
      s!"sequence item {place}: expected str instance, {kind} found"

end DraftError

end Noise
