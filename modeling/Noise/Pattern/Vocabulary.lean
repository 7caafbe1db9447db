/-!
# The vocabulary of handshake patterns

A pattern speaks of two parties, of messages that go one way or the other, and of
tokens. A token sends a public key, agrees on a secret from one key of each party, or
mixes in a secret that both already share.
-/

namespace Noise

/-- A party of the handshake. -/
inductive Role where
  | initiator
  | responder
deriving DecidableEq, Repr

namespace Role

def all : List Role := [.initiator, .responder]

def name : Role → String
  | .initiator => "initiator"
  | .responder => "responder"

def ofName? (name : String) : Option Role := all.find? (·.name == name)

def other : Role → Role
  | .initiator => .responder
  | .responder => .initiator

@[simp] theorem other_other (role : Role) : role.other.other = role := by
  cases role <;> rfl

theorem other_ne (role : Role) : role.other ≠ role := by
  cases role <;> decide

/-- There are only two parties. -/
theorem eq_or_eq_other (party role : Role) : party = role ∨ party = role.other := by
  cases party <;> cases role <;> decide

end Role

/-- The way a message goes, as the initiator sees it. -/
inductive Direction where
  | send
  | recv
deriving DecidableEq, Repr

namespace Direction

def all : List Direction := [.send, .recv]

def name : Direction → String
  | .send => "send"
  | .recv => "recv"

def ofName? (name : String) : Option Direction := all.find? (·.name == name)

/-- The party that writes a message. -/
def sender : Direction → Role
  | .send => .initiator
  | .recv => .responder

end Direction

/-- The two key pairs of a party. -/
inductive KeyKind where
  | ephemeral
  | static
deriving DecidableEq, Repr

/-- An atomic action of a handshake message. -/
inductive Token where
  /-- The sender's public key of that kind. -/
  | key (kind : KeyKind)
  /-- The secret shared between a key of the initiator and a key of the responder. -/
  | dh (initiator responder : KeyKind)
  /-- The secret that both parties hold from the start. -/
  | psk
deriving DecidableEq, Repr

namespace Token

def all : List Token :=
  [.key .ephemeral, .key .static, .dh .ephemeral .ephemeral, .dh .ephemeral .static,
   .dh .static .ephemeral, .dh .static .static, .psk]

/-- The word for the token. A key is named by its first letter, and an agreement by the
letters of the initiator's and the responder's key. -/
def name : Token → String
  | .key .ephemeral => "e"
  | .key .static => "s"
  | .dh .ephemeral .ephemeral => "ee"
  | .dh .ephemeral .static => "es"
  | .dh .static .ephemeral => "se"
  | .dh .static .static => "ss"
  | .psk => "psk"

def ofName? (name : String) : Option Token := all.find? (·.name == name)

/-- The token's name with its class, as messages show it. -/
def label (token : Token) : String := "Token." ++ token.name.toUpper

/-- Whether the token gives the transcript a key. The ephemeral key does so if the
pattern has a shared secret, because it is then mixed into the key. -/
def bearsKey (hasPsk : Bool) : Token → Bool
  | .key .ephemeral => hasPsk
  | .key .static => false
  | .dh .. => true
  | .psk => true

/-- Every token is listed. -/
theorem mem_all (token : Token) : token ∈ all := by
  rcases token with (_ | _) | ⟨_ | _, _ | _⟩ | _ <;> simp [all]

end Token

/-- What an object holds as its value, if it holds one at all. -/
inductive Label where
  | none
  | text (text : String)
  /-- A value that is no text, of that kind. -/
  | other (kind : String)
deriving DecidableEq, Repr

/-- An object that is no term of the vocabulary: all that is ever asked of it. -/
structure Stray where
  kind : String
  /-- The object as plain text. -/
  plain : String
  /-- The object as messages show it. -/
  literal : String
  label : Label := .none
deriving DecidableEq, Repr

/-- What stands in the place of a term: a term, or anything else. -/
inductive Word (α : Type) where
  | term (value : α)
  | stray (object : Stray)
deriving DecidableEq, Repr

namespace Word

def term? {α : Type} : Word α → Option α
  | .term value => some value
  | .stray _ => none

end Word

end Noise
