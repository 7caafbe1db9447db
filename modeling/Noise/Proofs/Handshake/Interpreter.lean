import Noise.State.Handshake

/-!
# Carrying out tokens directly

A token can be carried out without compiling it first.  A party works through the tokens
of a message with its keys and transcript and with the bytes of the message at hand;
whether a static key is encrypted shows at the moment it is written or read.  This is
the meaning that the programs of a protocol are measured by.
-/

namespace Noise

namespace Keys

def own (keys : Keys) : KeyKind → Option KeyPair
  | .ephemeral => keys.e
  | .static => keys.s

def peer (keys : Keys) : KeyKind → Option Bytes
  | .ephemeral => keys.re
  | .static => keys.rs

end Keys

namespace Interpreter

/-- What a party knows besides its state when it carries out a message. -/
structure Setting where
  suite : Suite
  attacker : AttackerModel
  /-- Whether some message of the pattern has the shared-secret token. -/
  hasPsk : Bool
  role : Role
  generate : KeyGenerator

/-- A party at work on a message. -/
structure Turn where
  state : HandshakeState
  /-- The bytes that have been written, or the bytes that are left to read. -/
  wire : Bytes
  /-- Whether a key was drawn from the generator. -/
  drewKey : Bool := false

/-- Work on a message.  A failure keeps what has been done before it. -/
abbrev Work := EStateM ProtocolError Turn

@[simp] theorem run_throw {α : Type} (error : ProtocolError) (turn : Turn) :
    (throw error : Work α).run turn = .error error turn := rfl

/-- A value that must be there. -/
def present {α : Type} (operand : Operand) : Option α → Work α
  | some value => pure value
  | none => throw (.notSet operand)

def attempt {α : Type} : Except ProtocolError α → Work α
  | .ok value => pure value
  | .error error => throw error

def ownPair (kind : KeyKind) : Work KeyPair := do
  present (.own kind) ((← get).state.own kind)

def peerKey (kind : KeyKind) : Work Bytes := do
  present (.peer kind) ((← get).state.peer kind)

/-- The secret that both parties hold from the start. -/
def sharedSecret : Work Bytes := do
  present .psk (← get).state.psk

/-- Remembers a public key of the other party. -/
def learn (kind : KeyKind) (key : Bytes) : Work Unit :=
  modify fun turn =>
    match kind with
    | .ephemeral => { turn with state.re := some key }
    | .static => { turn with state.rs := some key }

/-- Changes the transcript. -/
def mix (change : SymmetricState → SymmetricState) : Work Unit :=
  modify fun turn => { turn with state.symmetric := change turn.state.symmetric }

/-- The result of a call of the transcript.  A failure keeps the transcript
that it left. -/
def attemptSymmetric {α : Type} : Except (Halt SymmetricState) α → Work α
  | .ok value => pure value
  | .error halt => do
      mix fun _ => halt.state
      throw halt.error

@[simp] theorem run_attemptSymmetric_ok {α : Type} (value : α) (turn : Turn) :
    (attemptSymmetric (.ok value)).run turn = .ok value turn := rfl

@[simp] theorem run_attemptSymmetric_error {α : Type} (halt : Halt SymmetricState)
    (turn : Turn) :
    (attemptSymmetric (.error halt) : Work α).run turn =
      .error halt.error { turn with state.symmetric := halt.state } := rfl

def append (bytes : Bytes) : Work Unit :=
  modify fun turn => { turn with wire := turn.wire ++ bytes }

def take (length : Nat) : Work Bytes := do
  let wire := (← get).wire
  if wire.length < length then throw (.tooShort length wire.length)
  modify fun turn => { turn with wire := wire.drop length }
  return wire.take length

variable (setting : Setting)

/-- The ephemeral key pair, which is made when there is none yet. -/
def ephemeralPair : Work KeyPair := do
  match (← get).state.e with
  | some pair => return pair
  | none =>
      let pair := KeyPair.ofPrivateKey (setting.generate setting.suite.dh)
      modify fun turn => { turn with state.e := some pair, drewKey := true }
      return pair

/-- Encrypts a text under the transcript and takes the result into it. -/
def encryptAndHash (plaintext : Bytes) : Work Bytes := do
  let (ciphertext, symmetric) ←
    attemptSymmetric ((← get).state.symmetric.encryptAndHash setting.suite plaintext)
  mix fun _ => symmetric
  return ciphertext

/-- Decrypts a message under the transcript and takes the message into it. -/
def decryptAndHash (message : Bytes) : Work Bytes := do
  let (plaintext, symmetric) ←
    attemptSymmetric ((← get).state.symmetric.decryptAndHash setting.suite message)
  mix fun _ => symmetric
  return plaintext

/-- The length by which encryption makes a text longer at this moment. -/
def overhead : Work Nat := do
  return if (← get).state.symmetric.hasKey then tagLength else 0

/-- Takes all that is left of the message.  Under a key there must be room for a tag. -/
def takeRest : Work Bytes := do
  let minimum ← overhead
  let wire := (← get).wire
  if wire.length < minimum then throw (.tooShort minimum wire.length)
  modify fun turn => { turn with wire := [] }
  return wire

/-- The secret shared between an own key and a key of the other party. -/
def agreedSecret (own peer : KeyKind) : Work Bytes := do
  let pair ← ownPair own
  attempt (pair.agree (← peerKey peer))

/-- Takes an agreement between a key of the initiator and a key of the responder into
the key.  Either party brings the private half of its own key. -/
def mixAgreement (initiator responder : KeyKind) : Work Unit := do
  let secret ← match setting.role with
    | .initiator => agreedSecret initiator responder
    | .responder => agreedSecret responder initiator
  mix (·.mixKey setting.suite secret)

/-- Takes a public ephemeral key into the transcript, and into the key as well if the
pattern has a shared secret. -/
def mixEphemeral (key : Bytes) : Work Unit := do
  mix (·.mixHash setting.suite key)
  if setting.hasPsk then mix (·.mixKey setting.suite key)

/-- Takes the shared secret into hash and key. -/
def mixSharedSecret : Work Unit := do
  let secret ← sharedSecret
  mix (·.mixKeyAndHash setting.suite secret)

/-- Under an active attacker, refuses a public key that is zero or the own
key of its kind. -/
def check (kind : KeyKind) (key : Bytes) : Work Unit := do
  let own := (← get).state.own kind
  match setting.attacker with
  | .passive => pure ()
  | .active =>
      if key.isZero then throw (.zeroKey (.peer kind))
      if own.any (·.publicKey == key) then throw (.reflectedKey (.peer kind))

def writeToken : Token → Work Unit
  | .key .ephemeral => do
      let pair ← ephemeralPair setting
      append pair.publicKey
      mixEphemeral setting pair.publicKey
  | .key .static => do
      let pair ← ownPair .static
      append (← encryptAndHash setting pair.publicKey)
  | .dh initiator responder => mixAgreement setting initiator responder
  | .psk => mixSharedSecret setting

def readToken : Token → Work Unit
  | .key .ephemeral => do
      let key ← take setting.suite.dh.keyLength
      learn .ephemeral key
      check setting .ephemeral key
      mixEphemeral setting key
  | .key .static => do
      let field ← take (setting.suite.dh.keyLength + (← overhead))
      let key ← decryptAndHash setting field
      if key.length ≠ setting.suite.dh.keyLength then
        throw (.decryptedKeyLength setting.suite.dh.keyLength key.length)
      learn .static key
      check setting .static key
  | .dh initiator responder => mixAgreement setting initiator responder
  | .psk => mixSharedSecret setting

/-- Ends the handshake, if this is its final message: keeps the hash, derives the
transport ciphers and overwrites the transcript. -/
def finish (isFinal : Bool) : Work (Option Ending) := do
  if isFinal then
    let symmetric := (← get).state.symmetric
    let (first, second) := symmetric.split setting.suite
    mix SymmetricState.clear
    return some { handshakeHash := symmetric.h, first, second }
  else
    return none

/-- Writes the payload, and ends the handshake after it if this is the final message. -/
def writePayload (isFinal : Bool) (payload : Bytes) : Work (Option Ending) := do
  append (← encryptAndHash setting payload)
  finish setting isFinal

/-- Reads all that is left as the payload, and ends the handshake after it if this
is the final message. -/
def readPayload (isFinal : Bool) : Work (Bytes × Option Ending) := do
  let payload ← decryptAndHash setting (← takeRest)
  return (payload, ← finish setting isFinal)

def writeMessage (tokens : List Token) (isFinal : Bool) (payload : Bytes) :
    Work (Option Ending) := do
  tokens.forM (writeToken setting)
  writePayload setting isFinal payload

def readMessage (tokens : List Token) (isFinal : Bool) :
    Work (Bytes × Option Ending) := do
  tokens.forM (readToken setting)
  readPayload setting isFinal

/-- The party at the point where its work failed. -/
structure Failure where
  state : HandshakeState
  error : ProtocolError
  /-- Whether a key was drawn from the generator. -/
  drewKey : Bool

/-- What is left of a message that was written. -/
def write (state : HandshakeState) (tokens : List Token) (isFinal : Bool)
    (payload : Bytes) :
    Except Failure Outcome :=
  match (writeMessage setting tokens isFinal payload).run { state, wire := [] } with
  | .ok ending turn =>
      .ok { message := turn.wire, state := turn.state, ending, drewKey := turn.drewKey }
  | .error error turn => .error { state := turn.state, error, drewKey := turn.drewKey }

/-- What is left of a message that was read. -/
def read (state : HandshakeState) (tokens : List Token) (isFinal : Bool)
    (input : Bytes) :
    Except Failure Outcome :=
  match (readMessage setting tokens isFinal).run { state, wire := input } with
  | .ok (payload, ending) turn =>
      .ok { message := payload, state := turn.state, ending, drewKey := turn.drewKey }
  | .error error turn => .error { state := turn.state, error, drewKey := turn.drewKey }

end Interpreter

end Noise
