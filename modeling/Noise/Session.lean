import Noise.State.Handshake

/-!
# Sessions

A session takes one party through the handshake messages of a protocol in order and
then encrypts transport messages. Every step runs on the side: a failed call leaves
the session as it was, except that under an active attacker an error of the
protocol ends the session.
-/

namespace Noise

/-- The two transport ciphers. In a one-way pattern only the first has a key. -/
inductive Channel where
  | a
  | b
deriving DecidableEq, Repr

/-- One party's side of a protocol run. -/
structure Session where
  protocol : Protocol
  role : Role
  /-- The handshake state, until the handshake ends or the session is abandoned. -/
  handshake : Option HandshakeState
  /-- The number of messages sent and received. -/
  counter : Nat := 0
  cipherA : CipherState := {}
  cipherB : CipherState := {}
  /-- The hash of the transcript, once the handshake has ended. -/
  handshakeHash : Option Bytes := none
  /-- The other party's static key as known at the start or at the end of the
  handshake. -/
  peerStatic : Option Bytes
  /-- Whether the session has been abandoned or cleared. -/
  failed : Bool := false

/-- The session after a call, with the result of the call. -/
structure Reply where
  session : Session
  result : Except ProtocolError Bytes
  /-- Whether a key was drawn from the generator. -/
  drewKey : Bool := false

namespace Session

/-- Refuses a key pair of another Diffie-Hellman function than the suite's. -/
def checkFunction (suite : Suite) (pair : Option KeyPair) : Except ProtocolError Unit :=
  match pair with
  | some pair =>
      if pair.dh = suite.dh then .ok ()
      else .error (.otherFunction pair.dh suite.dh)
  | none => .ok ()

/-- Refuses a missing shared secret, or one of the wrong length, if the
pattern uses one. -/
def checkPsk (protocol : Protocol) (psk : Option Bytes) : Except ProtocolError Unit :=
  if protocol.hasPsk then
    match psk with
    | none => .error (.pskMissing protocol.name)
    | some psk =>
        if psk.length = pskLength then .ok () else .error (.pskLength psk.length)
  else .ok ()

/-- Starts a session for a role with these keys. A shared secret that the pattern does
not use is dropped. -/
def start (protocol : Protocol) (role : Role) (prologue : Bytes) (keys : Keys) :
    Except ProtocolError Session := do
  checkPsk protocol keys.psk
  if keys.s.isNone && protocol.requires role (.own .static) then
    throw (.staticKeyMissing protocol.name role)
  checkFunction protocol.suite keys.s
  checkFunction protocol.suite keys.e
  let handshake ← HandshakeState.start protocol role prologue
    { keys with psk := if protocol.hasPsk then keys.psk else none }
  return { protocol, role, handshake := some handshake, peerStatic := handshake.rs }

def isComplete (session : Session) : Bool := session.handshakeHash.isSome

/-- The hash of the transcript. -/
def hash (session : Session) : Except ProtocolError Bytes :=
  match session.handshakeHash with
  | some hash => .ok hash
  | none => .error .handshakeIncomplete

/-- The other party's static public key, once it is known. -/
def remoteStatic (session : Session) : Option Bytes :=
  (session.handshake.bind (·.rs)).or session.peerStatic

def cipher (session : Session) : Channel → CipherState
  | .a => session.cipherA
  | .b => session.cipherB

def withCipher (session : Session) (channel : Channel) (cipher : CipherState) :
    Session :=
  match channel with
  | .a => { session with cipherA := cipher }
  | .b => { session with cipherB := cipher }

/-- Drops every secret. The session cannot be used afterwards. -/
def clear (session : Session) : Session :=
  { session with handshake := none, cipherA := {}, cipherB := {}, failed := true }

/-- The session after an error. Under an active attacker an error of the
protocol ends it. -/
def afterError (session : Session) (error : ProtocolError) : Session :=
  if session.protocol.attacker = .active ∧
    error.isOfProtocol then session.clear else session

/-- Refuses a call before anything has been tried. -/
def refuse (session : Session) (error : ProtocolError) : Reply :=
  { session, result := .error error }

/-- Gives up on a call that has been tried. -/
def fail (session : Session) (error : ProtocolError) (drewKey : Bool) : Reply :=
  { session := session.afterError error, result := .error error, drewKey }

/-- The session after a handshake message. The end of the handshake leaves the transport
ciphers; in a one-way pattern the second is dropped. -/
def advance (session : Session) (outcome : Outcome) : Session :=
  match outcome.ending with
  | none =>
      { session with handshake := some outcome.state, counter := session.counter + 1 }
  | some ending =>
      { session with
        handshake := none
        counter := session.counter + 1
        cipherA := ending.first
        cipherB := if session.protocol.isOneWay then {} else ending.second
        handshakeHash := some ending.handshakeHash
        peerStatic := outcome.state.rs }

/-- Takes over the outcome of a handshake step, if it succeeded and its message
has an allowed length. -/
def commit (session : Session) (maximum : Option Nat)
    (result : Except Stopped Outcome) : Reply :=
  match result with
  | .error stopped => session.fail stopped.error stopped.machine.frame.drewKey
  | .ok outcome =>
      if maximum.any (· < outcome.message.length) then
        session.fail (.tooLarge outcome.message.length) outcome.drewKey
      else
        { session := session.advance outcome, result := .ok outcome.message,
          drewKey := outcome.drewKey }

/-- The channel for an action of the transport phase. In a one-way pattern the first
channel serves the one role that sends; otherwise the initiator sends on the first and
the responder on the second. -/
def channel (session : Session) (action : Action) : Except ProtocolError Channel :=
  if !session.isComplete then .error .handshakeIncomplete
  else if session.protocol.isOneWay then
    if (session.protocol.oneWaySender == some session.role) == (action == .send)
    then .ok .a
    else .error (.wrongWay session.role action)
  else if (session.role == .initiator) == (action == .send) then .ok .a
  else .ok .b

/-- Takes over the result of a transport cipher. -/
def commitTransport (session : Session) (channel : Channel)
    (result : Except (Halt CipherState) (Bytes × CipherState)) : Reply :=
  match result with
  | .error halt => (session.withCipher channel halt.state).fail halt.error false
  | .ok (bytes, cipher) =>
      { session := { session.withCipher channel cipher with
        counter := session.counter + 1 }
        result := .ok bytes }

/-- The next outgoing message. During the handshake the text is the payload of the
message, and the generator gives the ephemeral key if one is needed. -/
def send (session : Session) (generate : KeyGenerator) (plaintext : Bytes) : Reply :=
  if session.failed then session.refuse .unusable
  else if session.counter ≤ session.protocol.finalIndex then
    match session.protocol.steps[session.counter]?, session.handshake with
    | some step, some handshake =>
        if step.sender = session.role then
          session.commit (some maxMessageLength)
            (handshake.write session.protocol.suite generate step.write plaintext)
        else session.refuse (.notYourTurn session.role .send session.counter)
    | _, _ => session.refuse .corrupt
  else
    match session.channel .send with
    | .error error => session.refuse error
    | .ok channel =>
        if maxMessageLength < plaintext.length + tagLength then
          session.refuse (.tooLarge (plaintext.length + tagLength))
        else
          session.commitTransport channel
            ((session.cipher channel).encrypt session.protocol.suite.cipher
              [] plaintext)

/-- The text of an incoming message. -/
def recv (session : Session) (generate : KeyGenerator) (message : Bytes) : Reply :=
  if session.failed then session.refuse .unusable
  else if maxMessageLength < message.length then
    session.refuse (.tooLarge message.length)
  else if session.counter ≤ session.protocol.finalIndex then
    match session.protocol.steps[session.counter]?, session.handshake with
    | some step, some handshake =>
        if step.receiver = session.role then
          session.commit none
            (handshake.read session.protocol.suite generate step.read message)
        else session.refuse (.notYourTurn session.role .receive session.counter)
    | _, _ => session.refuse .corrupt
  else
    match session.channel .receive with
    | .error error => session.refuse error
    | .ok channel =>
        session.commitTransport channel
          ((session.cipher channel).decrypt session.protocol.suite.cipher [] message)

/-- Replaces the key of the channel for an action by the next one. -/
def rekey (session : Session) (action : Action) : Except (Halt Session) Session := do
  if session.failed then throw { state := session, error := .unusable }
  let channel ← haltAt session (session.channel action)
  let cipher ← ((session.cipher channel).rekey session.protocol.suite.cipher).mapError
    (Halt.map (session.withCipher channel))
  return session.withCipher channel cipher

/-- Sets the counter of a transport cipher, without any check. -/
def setNonce (session : Session) (channel : Channel) (nonce : Int) : Session :=
  session.withCipher channel { session.cipher channel with nonce }

end Session

end Noise
