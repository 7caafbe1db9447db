import Noise.Cipher.Function
import Noise.Dh.Function
import Noise.Program.Instruction

/-!
# Errors of a running protocol

Every cause for which a cipher, a key, a handshake or a session refuses a call, its
kind, and its text. The last two kinds are errors in the parameters of a primitive and
not of the protocol; a session does not react to them.
-/

namespace Noise

/-- Length of a shared secret in bytes. -/
def pskLength : Nat := 32

/-- The most bytes that a message may have. -/
def maxMessageLength : Nat := 65535

/-- What a party does with a message. -/
inductive Action where
  | send
  | receive
deriving DecidableEq, Repr

namespace Action

def name : Action → String
  | .send => "send"
  | .receive => "receive"

end Action

inductive ErrorKind where
  /-- A message is not authentic. -/
  | decryption
  /-- A message is shorter than a field of it. -/
  | tooShort
  /-- The role may not do this now. -/
  | sequencing
  /-- A public key has the wrong length or value. -/
  | publicKey
  /-- A private key or a shared secret has the wrong length or function. -/
  | privateKey
  /-- A key is needed and not there. -/
  | missingKey
  /-- A cipher has no nonce left. -/
  | nonceExhausted
  /-- A message is longer than allowed. -/
  | tooLarge
  /-- A session's parts do not belong together. -/
  | corrupt
  /-- A cipher does not take keys of that length. -/
  | cipherKey
  /-- A counter is out of the range of nonces. -/
  | nonceRange
deriving DecidableEq, Repr

/-- Why a call is refused. -/
inductive ProtocolError where
  | nonceExhausted
  | tagMismatch
  | cipherKeyLength (cipher : CipherFunction)
  | nonce (cause : NonceError)
  | privateKeyLength (expected got : Nat)
  | publicKeyLength (expected got : Nat)
  /-- The shared secret would be zero. -/
  | zeroSecret
  | tooShort (needed available : Int)
  | notSet (operand : Operand)
  | decryptedKeyLength (expected : Int) (got : Nat)
  | zeroKey (operand : Operand)
  /-- The other party's key is the own key. -/
  | reflectedKey (operand : Operand)
  | pskMissing (pattern : String)
  | pskLength (got : Nat)
  | staticKeyMissing (pattern : String) (role : Role)
  | otherFunction (key suite : DhFunction)
  | notYourTurn (role : Role) (action : Action) (counter : Nat)
  | wrongWay (role : Role) (action : Action)
  | handshakeIncomplete
  | unusable
  | tooLarge (length : Nat)
  | corrupt
deriving DecidableEq, Repr

namespace ProtocolError

def kind : ProtocolError → ErrorKind
  | .nonceExhausted => .nonceExhausted
  | .tagMismatch => .decryption
  | .cipherKeyLength _ => .cipherKey
  | .nonce _ => .nonceRange
  | .privateKeyLength .. | .pskLength _ | .otherFunction .. => .privateKey
  | .publicKeyLength .. | .zeroSecret | .decryptedKeyLength .. | .zeroKey _
      | .reflectedKey _ =>
      .publicKey
  | .tooShort .. => .tooShort
  | .notSet _ | .pskMissing _ | .staticKeyMissing .. => .missingKey
  | .notYourTurn .. | .wrongWay .. | .handshakeIncomplete | .unusable => .sequencing
  | .tooLarge _ => .tooLarge
  | .corrupt => .corrupt

/-- Whether the error is one of the protocol and not of the parameters of a
primitive. -/
def isOfProtocol (error : ProtocolError) : Bool :=
  match error.kind with
  | .corrupt | .cipherKey | .nonceRange => false
  | _ => true

def message : ProtocolError → String
  | .nonceExhausted => "Cipher nonce exhausted"
  | .tagMismatch => "Authentication tag mismatch"
  | .cipherKeyLength .chaChaPoly => "ChaCha20Poly1305 key must be 32 bytes."
  | .cipherKeyLength .aesGcm => "AESGCM key must be 128, 192, or 256 bits."
  | .nonce cause => cause.message
  | .privateKeyLength expected got =>
      s!"Private key must be {expected} bytes, got {got}"
  | .publicKeyLength expected got => s!"Public key must be {expected} bytes, got {got}"
  | .zeroSecret => "DH with remote key failed: Error computing shared key."
  | .tooShort needed available =>
      s!"Message too short: need {needed} bytes, have {available}"
  | .notSet operand => s!"Handshake requires '{operand.name}' but it is not set"
  | .decryptedKeyLength expected got =>
      s!"Decrypted key must be {expected} bytes, got {got}"
  | .zeroKey operand => s!"Remote key '{operand.name}' is all zeros"
  | .reflectedKey operand => s!"Remote key '{operand.name}' reflects our own public key"
  | .pskMissing pattern => s!"Pattern {pattern} requires a PSK"
  | .pskLength got => s!"PSK must be {Noise.pskLength} bytes, got {got}"
  | .staticKeyMissing pattern role =>
      s!"Pattern {pattern} requires a local static key for {role.name}"
  | .otherFunction key suite =>
      s!"Key pair is for DH {key.name}, suite uses {suite.name}"
  | .notYourTurn role action counter =>
      s!"{role.name} cannot {action.name} handshake message {counter}"
  | .wrongWay role action => s!"{role.name} cannot {action.name} in a one-way pattern"
  | .handshakeIncomplete => "Handshake not complete"
  | .unusable => "Session is no longer usable"
  | .tooLarge length => s!"Message too large: {length} bytes (max {maxMessageLength})"
  | .corrupt => "Session state is inconsistent"

end ProtocolError

/-- A failed call: the state in which it stopped, and the error. -/
structure Halt (σ : Type) where
  state : σ
  error : ProtocolError
deriving DecidableEq, Repr

namespace Halt

/-- The same failure of a larger state. -/
def map {σ τ : Type} (into : σ → τ) (halt : Halt σ) : Halt τ where
  state := into halt.state
  error := halt.error

end Halt

/-- The result of a part of a call; a failure stops the call in this state. -/
def haltAt {σ α : Type} (state : σ) (result : Except ProtocolError α) :
    Except (Halt σ) α :=
  result.mapError fun error => { state, error }

end Noise
