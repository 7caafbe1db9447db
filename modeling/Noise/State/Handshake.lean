import Noise.Dh.KeyPair
import Noise.Protocol
import Noise.State.Symmetric

/-!
# Handshake states

A party's keys and transcript, and how a program changes them. A program runs
until an instruction fails; what ran before stays, and the failure carries the
machine at which it stopped.
-/

namespace Noise

/-- The keys that a party holds. -/
structure Keys where
  /-- The own static key pair. -/
  s : Option KeyPair := none
  /-- The own ephemeral key pair. -/
  e : Option KeyPair := none
  /-- The other party's static public key. -/
  rs : Option Bytes := none
  /-- The other party's ephemeral public key. -/
  re : Option Bytes := none
  /-- The shared secret. -/
  psk : Option Bytes := none
deriving DecidableEq, Repr

/-- A party's keys and transcript. -/
structure HandshakeState extends Keys where
  symmetric : SymmetricState
deriving DecidableEq, Repr

/-- What the end of a handshake leaves. -/
structure Ending where
  handshakeHash : Bytes
  first : CipherState
  second : CipherState
deriving DecidableEq, Repr

/-- The data of one run of a program. -/
structure Frame where
  prologue : Bytes := []
  payload : Bytes := []
  /-- The incoming message. -/
  input : Bytes := []
  /-- The place in the incoming message from which bytes are taken next. -/
  position : Int := 0
  /-- The outgoing message so far. -/
  output : Bytes := []
  /-- The text that was decrypted last. -/
  plaintext : Bytes := []
  /-- What a split left. -/
  ending : Option Ending := none
  /-- Whether a key was drawn from the generator. -/
  drewKey : Bool := false
deriving DecidableEq, Repr

/-- A handshake state in the course of a program. -/
structure Machine where
  state : HandshakeState
  frame : Frame
deriving DecidableEq, Repr

/-- A failed run: the machine at the failing instruction, and the error. -/
structure Stopped where
  machine : Machine
  error : ProtocolError
deriving DecidableEq, Repr

namespace HandshakeState

/-- The key pair that an operand stands for in an agreement: the ephemeral one if the
operand is that, and the static one otherwise. -/
def keyPair (state : HandshakeState) (operand : Operand) :
    Except ProtocolError KeyPair :=
  let pair := match operand with
    | .own .ephemeral => state.e
    | _ => state.s
  match pair with
  | some pair => .ok pair
  | none => .error (.notSet operand)

/-- The state with its secrets overwritten. The other party's static key is
not secret and stays. -/
def clear (state : HandshakeState) : HandshakeState where
  rs := state.rs
  symmetric := state.symmetric.clear

end HandshakeState

namespace Machine

/-- The result of a part of an instruction; a failure stops the machine here. -/
def attempt {α : Type} (machine : Machine) (result : Except ProtocolError α) :
    Except Stopped α :=
  result.mapError fun error => { machine, error }

def value (machine : Machine) (operand : Operand) : Except ProtocolError Bytes :=
  match operand with
  | .prologue => .ok machine.frame.prologue
  | .payload => .ok machine.frame.payload
  | .own _ => (machine.state.keyPair operand).map (·.publicKey)
  | .psk => known machine.state.psk
  | .peer .ephemeral => known machine.state.re
  | .peer .static => known machine.state.rs
where
  /-- A value that may be missing. -/
  known : Option Bytes → Except ProtocolError Bytes
    | some bytes => .ok bytes
    | none => .error (.notSet operand)

def source (machine : Machine) : Source → Except ProtocolError Bytes
  | .value operand => machine.value operand
  | .dh ownKey publicKey => do
      let pair ← machine.state.keyPair ownKey
      pair.agree (← machine.value publicKey)

/-- Stores a value that was read: a public key of the other party, or else the
text of the message. -/
def store (machine : Machine) (target : Operand) (bytes : Bytes) : Machine :=
  match target with
  | .peer .ephemeral => { machine with state.re := some bytes }
  | .peer .static => { machine with state.rs := some bytes }
  | _ => { machine with frame.plaintext := bytes }

/-- Takes the bytes of the incoming message from the current place to the one `length`
further on, and moves there. With a negative length it moves back. -/
def take (machine : Machine) (length : Int) : Except Stopped (Bytes × Machine) :=
  let input := machine.frame.input
  let start := machine.frame.position
  let available := input.length - start
  if available < length then .error { machine, error := .tooShort length available }
  else .ok
    (input.slice start (start + length),
      { machine with frame.position := start + length })

/-- Takes all that is left of the incoming message. Under a key there must be
room for a tag. -/
def takeRest (machine : Machine) : Except Stopped (Bytes × Machine) :=
  let input := machine.frame.input
  let rest := input.slice machine.frame.position input.length
  let minimum := if machine.state.symmetric.hasKey then tagLength else 0
  if rest.length < minimum then
    .error { machine, error := .tooShort (minimum : Nat) rest.length }
  else .ok (rest, { machine with frame.position := input.length })

def emit (machine : Machine) (bytes : Bytes) : Machine :=
  { machine with frame.output := machine.frame.output ++ bytes }

def withSymmetric (machine : Machine) (symmetric : SymmetricState) : Machine :=
  { machine with state.symmetric := symmetric }

/-- The result of a call of the transcript; a failure stops the machine with the
transcript that it left. -/
def attemptSymmetric {α : Type} (machine : Machine)
    (result : Except (Halt SymmetricState) α) :
    Except Stopped α :=
  result.mapError fun halt =>
    { machine := machine.withSymmetric halt.state, error := halt.error }

/-- Refuses a public key that is zero, or that is the own public key of its kind. -/
def checkKey (machine : Machine) (target : Operand) : Except ProtocolError Unit := do
  let key ← machine.value target
  if key.isZero then throw (.zeroKey target)
  let pair := match target with
    | .peer .ephemeral => machine.state.e
    | _ => machine.state.s
  if pair.any (·.publicKey == key) then throw (.reflectedKey target)

def exec (suite : Suite) (generate : KeyGenerator) (machine : Machine)
    (instruction : Instruction) :
    Except Stopped Machine :=
  let symmetric := machine.state.symmetric
  match instruction with
  | .generateEphemeral =>
      match machine.state.e with
      | some _ => .ok machine
      | none =>
          .ok { machine with
            state.e := some (.ofPrivateKey (generate suite.dh)), frame.drewKey := true }
  | .emit source => do
      return machine.emit (← machine.attempt (machine.value source))
  | .parse target length => do
      let (bytes, machine) ← machine.take length
      return machine.store target bytes
  | .mixHash source => do
      let data ← machine.attempt (machine.value source)
      return machine.withSymmetric (symmetric.mixHash suite data)
  | .mixKey source => do
      let secret ← machine.attempt (machine.source source)
      return machine.withSymmetric (symmetric.mixKey suite secret)
  | .mixKeyAndHash source => do
      let secret ← machine.attempt (machine.value source)
      return machine.withSymmetric (symmetric.mixKeyAndHash suite secret)
  | .authEncrypt source => do
      let plaintext ← machine.attempt (machine.value source)
      let (ciphertext, symmetric) ←
        machine.attemptSymmetric (symmetric.encryptAndHash suite plaintext)
      return (machine.withSymmetric symmetric).emit ciphertext
  | .authDecrypt target length expected => do
      let (bytes, machine) ← match length with
        | some length => machine.take length
        | none => machine.takeRest
      let (plaintext, symmetric) ←
        machine.attemptSymmetric (symmetric.decryptAndHash suite bytes)
      let machine := machine.withSymmetric symmetric
      match expected with
      | some expected =>
          if plaintext.length = expected then return machine.store target plaintext
          else throw { machine, error := .decryptedKeyLength expected plaintext.length }
      | none => return machine.store target plaintext
  | .checkRemoteKey target => do
      machine.attempt (machine.checkKey target)
      return machine
  | .split =>
      let (first, second) := symmetric.split suite
      let ending : Ending := { handshakeHash := symmetric.h, first, second }
      .ok { machine.withSymmetric symmetric.clear with frame.ending := some ending }

def run (suite : Suite) (generate : KeyGenerator) (machine : Machine)
    (program : Program) :
    Except Stopped Machine :=
  program.foldlM (exec suite generate) machine

end Machine

/-- What a write or a read leaves. -/
structure Outcome where
  /-- The outgoing message of a write, or the text of a read. -/
  message : Bytes
  /-- The state afterwards. -/
  state : HandshakeState
  /-- What a split left. -/
  ending : Option Ending
  /-- Whether a key was drawn from the generator. -/
  drewKey : Bool
deriving DecidableEq, Repr

namespace HandshakeState

/-- The state at the start of a protocol with these keys, before any program. -/
def ofKeys (protocol : Protocol) (keys : Keys) : HandshakeState :=
  { toKeys := keys,
    symmetric := .start protocol.suite (Text.toBytes protocol.fullName) }

/-- The state of a role at the start of a handshake. No initialization
program draws a key. -/
def start (protocol : Protocol) (role : Role) (prologue : Bytes) (keys : Keys) :
    Except ProtocolError HandshakeState :=
  let machine : Machine := { state := .ofKeys protocol keys, frame := { prologue } }
  match machine.run protocol.suite (fun _ => default)
    (protocol.initialization role) with
  | .ok machine => .ok machine.state
  | .error stopped => .error stopped.error

def write (suite : Suite) (generate : KeyGenerator) (state : HandshakeState)
    (program : Program) (payload : Bytes) : Except Stopped Outcome := do
  let machine ← Machine.run suite generate { state, frame := { payload } } program
  return {
    message := machine.frame.output
    state := machine.state
    ending := machine.frame.ending
    drewKey := machine.frame.drewKey }

def read (suite : Suite) (generate : KeyGenerator) (state : HandshakeState)
    (program : Program) (input : Bytes) : Except Stopped Outcome := do
  let machine ← Machine.run suite generate { state, frame := { input } } program
  return {
    message := machine.frame.plaintext
    state := machine.state
    ending := machine.frame.ending
    drewKey := machine.frame.drewKey }

end HandshakeState

end Noise
