import Noise.Pattern.Malformed

/-!
# Drafts and patterns

A draft is a pattern as written down: its name may be any value, and its rows may hold
stray objects. A pattern is a draft that makes sense. `Draft.validate` reads the one as
the other, and reports the first fault in the order name, messages, pre-messages, rows.
-/

namespace Noise

/-- A direction and the words that go that way. -/
structure Row (δ τ : Type) where
  direction : δ
  tokens : List τ
deriving DecidableEq, Repr

/-- A row that may hold stray objects. -/
abbrev DraftRow := Row (Word Direction) (Word Token)

abbrev Message := Row Direction Token

/-- A pattern as written down. -/
structure Draft where
  name : Value
  preMessages : List DraftRow := []
  messages : List DraftRow := []
  oneWay : Bool := false
deriving Repr

/-- The public keys of a pre-message. -/
inductive PreMessageKeys where
  | ephemeral
  | static
  | both
deriving DecidableEq, Repr

namespace PreMessageKeys

/-- The kinds of the keys, the ephemeral key first. -/
def kinds : PreMessageKeys → List KeyKind
  | .ephemeral => [.ephemeral]
  | .static => [.static]
  | .both => [.ephemeral, .static]

/-- The keys that the words name, if they name keys in that order. -/
def ofWords? : List (Word Token) → Option PreMessageKeys
  | [.term (.key .ephemeral)] => some .ephemeral
  | [.term (.key .static)] => some .static
  | [.term (.key .ephemeral), .term (.key .static)] => some .both
  | _ => none

def words (keys : PreMessageKeys) : List (Word Token) :=
  keys.kinds.map fun kind => .term (.key kind)

@[simp] theorem ofWords?_words (keys : PreMessageKeys) :
    ofWords? keys.words = some keys := by
  cases keys <;> rfl

end PreMessageKeys

/-- Public keys that one party knows of the other before the handshake. -/
structure PreMessage where
  direction : Direction
  keys : PreMessageKeys
deriving DecidableEq, Repr

structure Pattern where
  name : Value
  preMessages : List PreMessage := []
  messages : List Message
  oneWay : Bool := false
deriving Repr

namespace Word

def toDirection : Word Direction → Except DraftError Direction
  | .term direction => .ok direction
  | .stray object => .error (.malformed (.unknownDirection object))

def toToken : Word Token → Except DraftError Token
  | .term token => .ok token
  | .stray object => .error (.malformed (.unknownToken object))

/-- The text for the word at some place of a list: the name of a term, and for a stray
object the value that it holds, or the object itself if it holds none. -/
def shown (place : Nat) : Word Token → Except DraftError String
  | .term token => .ok token.name
  | .stray object =>
      match object.label with
      | .none => .ok object.literal
      | .text text => .ok text
      | .other kind => .error (.unnamed place kind)

end Word

namespace Row

def toPreMessage (row : DraftRow) : Except DraftError PreMessage := do
  let direction ← row.direction.toDirection
  match PreMessageKeys.ofWords? row.tokens with
  | some keys => return { direction, keys }
  | none =>
      let names ← row.tokens.zipIdx.mapM fun entry => entry.1.shown entry.2
      throw (.malformed (.preMessageTokens names))

def toMessage (row : DraftRow) : Except DraftError Message := do
  let direction ← row.direction.toDirection
  let tokens ← row.tokens.mapM Word.toToken
  return { direction, tokens }

def ofMessage (message : Message) : DraftRow :=
  { direction := .term message.direction, tokens := message.tokens.map .term }

def ofPreMessage (preMessage : PreMessage) : DraftRow :=
  { direction := .term preMessage.direction, tokens := preMessage.keys.words }

@[simp] theorem toMessage_ofMessage (message : Message) :
    (ofMessage message).toMessage = .ok message := by
  have read : ∀ tokens : List Token,
      (tokens.map Word.term).mapM Word.toToken = .ok tokens := by
    intro tokens
    induction tokens with
    | nil => rfl
    | cons token rest ih =>
        simp [List.mapM_cons, Word.toToken, ih, bind, Except.bind, pure, Except.pure]
  simp [toMessage, ofMessage, read, Word.toDirection, bind, Except.bind, pure,
    Except.pure]

@[simp] theorem toPreMessage_ofPreMessage (preMessage : PreMessage) :
    (ofPreMessage preMessage).toPreMessage = .ok preMessage := by
  simp [toPreMessage, ofPreMessage, Word.toDirection, bind, Except.bind, pure,
    Except.pure]

end Row

namespace Draft

/-- The pattern that a draft describes. -/
def validate (draft : Draft) : Except DraftError Pattern := do
  if draft.name.isEmpty then throw (.malformed .emptyName)
  if draft.messages.isEmpty then throw (.malformed (.noMessages draft.name))
  let preMessages ← draft.preMessages.mapM Row.toPreMessage
  let messages ← draft.messages.mapM Row.toMessage
  return { name := draft.name, preMessages, messages, oneWay := draft.oneWay }

/-- The draft of rows without stray objects. -/
def ofRows (name : Value) (preMessages messages : List Message) : Draft where
  name := name
  preMessages := preMessages.map Row.ofMessage
  messages := messages.map Row.ofMessage

end Draft

namespace Pattern

/-- The pattern written down. -/
def toDraft (pattern : Pattern) : Draft where
  name := pattern.name
  preMessages := pattern.preMessages.map Row.ofPreMessage
  messages := pattern.messages.map Row.ofMessage
  oneWay := pattern.oneWay

/-- The form that is compiled. A single message goes one way only: it gets an
empty message after it, so that the end of the key exchange is found as in
every other pattern. -/
def normalize (pattern : Pattern) : Pattern :=
  if !pattern.oneWay && pattern.messages.length == 1 then
    { pattern with
      messages := pattern.messages ++ [{ direction := .send, tokens := [] }],
      oneWay := true }
  else pattern

/-- Normalizing twice is normalizing once. -/
@[simp] theorem normalize_normalize (pattern : Pattern) :
    pattern.normalize.normalize = pattern.normalize := by
  simp only [normalize]
  split <;> simp_all

end Pattern

/-- The pattern that a draft describes, in the form that is compiled. -/
def Draft.normalize (draft : Draft) : Except DraftError Pattern :=
  draft.validate.map Pattern.normalize

end Noise
