import Noise.Pattern.Draft

/-!
# Analysis of a message sequence

Where a pattern uses its shared secret, where ciphertext first becomes possible, and
where the key exchange ends. The definitions apply to drafts and to patterns alike.
-/

namespace Noise

/-- Words among which tokens can be told. -/
class Recognizable (τ : Type) where
  /-- The token that a word is, if it is one. -/
  token? : τ → Option Token

instance : Recognizable Token := ⟨some⟩

instance : Recognizable (Word Token) := ⟨Word.term?⟩

/-- The message indices that compilation relies on. -/
structure Analysis where
  /-- The last message with the shared-secret token. -/
  pskIndex : Option Nat
  /-- The first message that can hold ciphertext. -/
  firstEncryptingIndex : Option Nat
  /-- The message at which the transport keys are derived. -/
  finalIndex : Option Nat
deriving DecidableEq, Repr

namespace Row

variable {δ τ : Type} [Recognizable τ]

def has (row : Row δ τ) (token : Token) : Bool :=
  row.tokens.any fun word => Recognizable.token? word == some token

/-- Whether the row has a token that gives the transcript a key. -/
def bearsKey (hasPsk : Bool) (row : Row δ τ) : Bool :=
  row.tokens.any fun word => (Recognizable.token? word).any (Token.bearsKey hasPsk)

end Row

namespace Analysis

variable {δ τ : Type}

/-- The indices of the messages with a token. -/
def messagesWith [Recognizable τ] (messages : List (Row δ τ)) (token : Token) :
    List Nat :=
  (messages.zipIdx.filter fun entry => entry.1.has token).map (·.2)

/-- Whether there is a message at that index and it has tokens. -/
def isFilled (messages : List (Row δ τ)) (index : Nat) : Bool :=
  messages[index]?.any fun row => !row.tokens.isEmpty

/-- Whether a key exchange can end with that message: it has tokens, so has the one
before it, if there is one, and the one after it has none. -/
def isFinal (messages : List (Row δ τ)) (index : Nat) : Bool :=
  isFilled messages index && (index == 0 || isFilled messages (index - 1)) &&
    !isFilled messages (index + 1)

def ofMessages [Recognizable τ] (messages : List (Row δ τ)) : Analysis :=
  let pskIndex := (messagesWith messages .psk).getLast?
  { pskIndex
    firstEncryptingIndex := messages.findIdx? (Row.bearsKey pskIndex.isSome)
    finalIndex := (List.range messages.length).find? (isFinal messages) }

/-- Whether the pattern uses a shared secret. -/
def hasPsk (analysis : Analysis) : Bool := analysis.pskIndex.isSome

/-- Whether the transcript has a key before the message of that index. -/
def isKeyedBefore (analysis : Analysis) (index : Nat) : Bool :=
  analysis.firstEncryptingIndex.any (· < index)

/-- The number that is written for an index: the index, or minus one if there
is none. -/
def number : Option Nat → Int
  | some index => index
  | none => -1

end Analysis

/-- The analysis of a draft as it stands. -/
def Draft.analysis (draft : Draft) : Analysis := Analysis.ofMessages draft.messages

def Pattern.analysis (pattern : Pattern) : Analysis :=
  Analysis.ofMessages pattern.messages

end Noise
