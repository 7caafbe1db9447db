import Noise.Proofs.Handshake.Compilation
import Noise.Session

/-!
# Calls of a session

A session is used by calls, one after the other.  This module says what a call that
succeeds has done, for each kind of call once, and what a call that fails leaves behind:
under a passive attacker, nothing.
-/

namespace Noise.Session

variable {protocol : Protocol} {role : Role} {prologue : Bytes} {keys : Keys}
  {session : Session}
variable {generate : KeyGenerator} {plaintext message : Bytes}

/-! ## Calls that succeed -/

theorem of_checkFunction {suite : Suite} {pair : Option KeyPair}
    (checked : checkFunction suite pair = .ok ()) :
    ∀ held ∈ pair, held.dh = suite.dh := by
  rintro held rfl
  simp only [checkFunction] at checked
  split at checked
  · assumption
  · cases checked

/-- What a session that was started holds. -/
theorem of_start (started : start protocol role prologue keys = .ok session) :
    (∀ kind, ∀ pair ∈ keys.own kind, pair.dh = protocol.suite.dh) ∧
      ∃ handshake,
        HandshakeState.start protocol role prologue
          { keys with psk := if protocol.hasPsk then keys.psk else none } =
            .ok handshake ∧
        session =
          { protocol, role, handshake := some handshake,
            peerStatic := handshake.rs } := by
  obtain ⟨-, -, started⟩ := bind_eq_ok.1 started
  by_cases missing : keys.s.isNone && protocol.requires role (.own .static)
  · rw [if_pos missing] at started
    cases started
  · rw [if_neg missing] at started
    obtain ⟨⟨⟩, static, started⟩ := bind_eq_ok.1 started
    obtain ⟨⟨⟩, ephemeral, started⟩ := bind_eq_ok.1 started
    obtain ⟨handshake, begun, started⟩ := bind_eq_ok.1 started
    obtain rfl := Except.ok.inj started
    refine ⟨?_, handshake, begun, rfl⟩
    intro kind
    cases kind with
    | ephemeral => exact of_checkFunction ephemeral
    | static => exact of_checkFunction static

theorem of_commit {maximum : Option Nat} {result : Except Stopped Outcome}
    (committed : (session.commit maximum result).result = .ok message) :
    ∃ outcome, result = .ok outcome ∧ outcome.message = message ∧
      maximum.any (· < message.length) = false ∧
      (session.commit maximum result).session = session.advance outcome := by
  cases result with
  | error stopped => cases committed
  | ok outcome =>
      simp only [commit] at committed ⊢
      by_cases tooLarge : maximum.any (· < outcome.message.length)
      · rw [if_pos tooLarge] at committed
        cases committed
      · rw [if_neg tooLarge] at committed ⊢
        obtain rfl := Except.ok.inj committed
        exact ⟨outcome, rfl, rfl, by simpa using tooLarge, rfl⟩

theorem of_commitTransport {channel : Channel}
    {result : Except (Halt CipherState) (Bytes × CipherState)}
    (committed : (session.commitTransport channel result).result = .ok message) :
    ∃ cipher, result = .ok (message, cipher) ∧
      (session.commitTransport channel result).session =
        { session.withCipher channel cipher with counter := session.counter + 1 } := by
  cases result with
  | error halt => cases committed
  | ok pair =>
      obtain rfl := Except.ok.inj committed
      exact ⟨pair.2, rfl, rfl⟩

/-- A handshake message that was sent is the outcome of the step that is due. -/
theorem of_send_handshake
    (sent : (session.send generate plaintext).result = .ok message)
    (early : session.counter ≤ session.protocol.finalIndex) :
    session.failed = false ∧
      ∃ step handshake outcome,
        session.protocol.steps[session.counter]? = some step ∧
        session.handshake = some handshake ∧
        step.sender = session.role ∧
        handshake.write session.protocol.suite generate step.write plaintext =
          .ok outcome ∧
        outcome.message = message ∧ message.length ≤ maxMessageLength ∧
        (session.send generate plaintext).session = session.advance outcome := by
  cases usable : session.failed with
  | true => simp [send, usable, refuse] at sent
  | false =>
      refine ⟨rfl, ?_⟩
      simp only [send, usable, early, Bool.false_eq_true, ↓reduceIte] at sent ⊢
      split at sent
      next step handshake found going =>
        simp only [found, going]
        by_cases turn : step.sender = session.role
        · rw [if_pos turn] at sent ⊢
          obtain ⟨outcome, written, rfl, fits, after⟩ := of_commit sent
          refine ⟨step, handshake, outcome, rfl, rfl, turn, written, rfl, ?_, after⟩
          simpa using fits
        · rw [if_neg turn] at sent
          cases sent
      next => cases sent

/-- A transport message that was sent is the text under the cipher of the
sending channel. -/
theorem of_send_transport
    (sent : (session.send generate plaintext).result = .ok message)
    (late : session.protocol.finalIndex < session.counter) :
    session.failed = false ∧
      ∃ channel next,
        session.channel .send = .ok channel ∧
        plaintext.length + tagLength ≤ maxMessageLength ∧
        (session.cipher channel).encrypt session.protocol.suite.cipher [] plaintext =
          .ok (message, next) ∧
        (session.send generate plaintext).session =
          { session.withCipher channel next with counter := session.counter + 1 } := by
  have notEarly : ¬ session.counter ≤ session.protocol.finalIndex := by omega
  cases usable : session.failed with
  | true => simp [send, usable, refuse] at sent
  | false =>
      refine ⟨rfl, ?_⟩
      simp only [send, usable, notEarly, Bool.false_eq_true, ↓reduceIte] at sent ⊢
      cases chosen : session.channel .send with
      | error error => simp [chosen, refuse] at sent
      | ok channel =>
          simp only [chosen] at sent ⊢
          by_cases tooLarge : maxMessageLength < plaintext.length + tagLength
          · rw [if_pos tooLarge] at sent
            cases sent
          · rw [if_neg tooLarge] at sent ⊢
            obtain ⟨next, encrypted, after⟩ := of_commitTransport sent
            exact ⟨channel, next, rfl, by omega, encrypted, after⟩

/-- A transport message that was received has been decrypted with the cipher of
the receiving channel. -/
theorem of_recv_transport
    (received : (session.recv generate message).result = .ok plaintext)
    (late : session.protocol.finalIndex < session.counter) :
    session.failed = false ∧
      ∃ channel next,
        session.channel .receive = .ok channel ∧
        (session.cipher channel).decrypt session.protocol.suite.cipher [] message =
          .ok (plaintext, next) ∧
        (session.recv generate message).session =
          { session.withCipher channel next with counter := session.counter + 1 } := by
  have notEarly : ¬ session.counter ≤ session.protocol.finalIndex := by omega
  cases usable : session.failed with
  | true => simp [recv, usable, refuse] at received
  | false =>
      refine ⟨rfl, ?_⟩
      by_cases tooLarge : maxMessageLength < message.length
      · simp [recv, usable, tooLarge, refuse] at received
      · simp only [recv, usable, tooLarge, notEarly, Bool.false_eq_true,
          ↓reduceIte] at received ⊢
        cases chosen : session.channel .receive with
        | error error => simp [chosen, refuse] at received
        | ok channel =>
            simp only [chosen] at received ⊢
            obtain ⟨next, decrypted, after⟩ := of_commitTransport received
            exact ⟨channel, next, rfl, decrypted, after⟩

/-- Replacing a key has replaced the cipher of the channel. -/
theorem of_rekey {action : Action} {next : Session}
    (rekeyed : session.rekey action = .ok next) :
    session.failed = false ∧
      ∃ channel cipher,
        session.channel action = .ok channel ∧
        (session.cipher channel).rekey session.protocol.suite.cipher = .ok cipher ∧
        next = session.withCipher channel cipher := by
  cases usable : session.failed with
  | true =>
      simp only [rekey, usable, ↓reduceIte] at rekeyed
      cases rekeyed
  | false =>
      simp only [rekey, usable, Bool.false_eq_true, ↓reduceIte, bind_eq_ok,
        haltAt_eq_ok, mapError_eq_ok] at rekeyed
      obtain ⟨channel, chosen, cipher, replaced, made⟩ := rekeyed
      exact ⟨rfl, channel, cipher, chosen, replaced, (Except.ok.inj made).symm⟩

/-- While a handshake goes on, the party whose turn it is writes with the program of
the step that is due. -/
theorem send_handshake {step : Step} {handshake : HandshakeState}
    (usable : session.failed = false)
    (early : session.counter ≤ session.protocol.finalIndex)
    (found : session.protocol.steps[session.counter]? = some step)
    (going : session.handshake = some handshake) (turn : step.sender = session.role) :
    session.send generate plaintext =
      session.commit (some maxMessageLength)
        (handshake.write session.protocol.suite generate step.write plaintext) := by
  simp only [send, usable, early, found, going, turn, Bool.false_eq_true, ↓reduceIte]

/-- While a handshake goes on, the party whose turn it is reads with the program of
the step that is due. -/
theorem recv_handshake {step : Step} {handshake : HandshakeState}
    (usable : session.failed = false) (fits : message.length ≤ maxMessageLength)
    (early : session.counter ≤ session.protocol.finalIndex)
    (found : session.protocol.steps[session.counter]? = some step)
    (going : session.handshake = some handshake) (turn : step.receiver = session.role) :
    session.recv generate message =
      session.commit none
        (handshake.read session.protocol.suite generate step.read message) := by
  have notTooLarge : ¬ maxMessageLength < message.length := by omega
  simp only [recv, usable, notTooLarge, early, found, going, turn, Bool.false_eq_true,
    ↓reduceIte]

/-- After the handshake a text is encrypted with the cipher of the sending channel. -/
theorem send_transport {channel : Channel} (usable : session.failed = false)
    (late : session.protocol.finalIndex < session.counter)
    (chosen : session.channel .send = .ok channel)
    (fits : plaintext.length + tagLength ≤ maxMessageLength) :
    session.send generate plaintext =
      session.commitTransport channel
        ((session.cipher channel).encrypt session.protocol.suite.cipher
          [] plaintext) := by
  simp only [send, usable, Nat.not_le.2 late, chosen, Nat.not_lt.2 fits,
    Bool.false_eq_true, ↓reduceIte]

/-- After the handshake, a message is decrypted with the cipher of the
receiving channel. -/
theorem recv_transport {channel : Channel} (usable : session.failed = false)
    (fits : message.length ≤ maxMessageLength)
    (late : session.protocol.finalIndex < session.counter)
    (chosen : session.channel .receive = .ok channel) :
    session.recv generate message =
      session.commitTransport channel
        ((session.cipher channel).decrypt session.protocol.suite.cipher
          [] message) := by
  have notTooLarge : ¬ maxMessageLength < message.length := by omega
  have notEarly : ¬ session.counter ≤ session.protocol.finalIndex := by omega
  simp only [recv, usable, notTooLarge, notEarly, chosen, Bool.false_eq_true,
    ↓reduceIte]

/-- Replacing a key succeeds when the cipher of the channel takes the next key. -/
theorem rekey_eq {action : Action} {channel : Channel} {cipher : CipherState}
    (usable : session.failed = false) (chosen : session.channel action = .ok channel)
    (replaced : (session.cipher channel).rekey session.protocol.suite.cipher =
      .ok cipher) :
    session.rekey action = .ok (session.withCipher channel cipher) := by
  simp [rekey, usable, chosen, replaced, haltAt, mapError_ok]

/-! ## Calls that fail -/

/-- A call of a session. -/
inductive Call where
  | send (generate : KeyGenerator) (plaintext : Bytes)
  | recv (generate : KeyGenerator) (message : Bytes)
  /-- Replaces the key of the channel for the action. -/
  | rekey (action : Action)

/-- What a call leads to.  Replacing a key gives no bytes back. -/
def call (session : Session) : Call → Reply
  | .send generate plaintext => session.send generate plaintext
  | .recv generate message => session.recv generate message
  | .rekey action =>
      match session.rekey action with
      | .ok next => { session := next, result := .ok [] }
      | .error halt => halt.state.refuse halt.error

/-- The session after some calls. -/
def after (session : Session) (calls : List Call) : Session :=
  calls.foldl (fun session call => (session.call call).session) session

/-- Those of some calls that succeed when they are made in order. -/
def successes (session : Session) : List Call → List Call
  | [] => []
  | call :: rest =>
      match (session.call call).result with
      | .ok _ => call :: successes (session.call call).session rest
      | .error _ => successes (session.call call).session rest

@[simp] theorem withCipher_cipher (session : Session) (channel : Channel) :
    session.withCipher channel (session.cipher channel) = session := by
  cases channel <;> rfl

/-- A transport cipher that fails and is what it was leaves the session so. -/
theorem commitTransport_error {channel : Channel} {halt : Halt CipherState}
    (same : halt.state = session.cipher channel) :
    session.commitTransport channel (.error halt) = session.fail halt.error false := by
  rw [commitTransport, same, withCipher_cipher]

/-- Why a key is not replaced; the session is then what it was. -/
theorem rekey_eq_error {action : Action} {halt : Halt Session}
    (failed : session.rekey action = .error halt) :
    halt.state = session ∧
      (halt.error = .unusable ∨ session.channel action = .error halt.error ∨
        ∃ channel cause, (session.cipher channel).rekey session.protocol.suite.cipher =
          .error cause ∧ cause.error = halt.error) := by
  cases usable : session.failed with
  | true =>
      simp only [rekey, usable, ↓reduceIte] at failed
      obtain rfl := Except.error.inj failed
      exact ⟨rfl, .inl rfl⟩
  | false =>
      simp only [rekey, usable, Bool.false_eq_true, ↓reduceIte] at failed
      rcases bind_eq_error.1 failed with failed | ⟨channel, -, failed⟩
      · obtain ⟨same, refused⟩ := haltAt_eq_error.1 failed
        exact ⟨same, .inr (.inl refused)⟩
      · rcases bind_eq_error.1 failed with failed | ⟨next, -, made⟩
        · obtain ⟨cause, stuck, rfl⟩ := mapError_eq_error.1 failed
          refine ⟨?_, .inr (.inr ⟨channel, cause, stuck, rfl⟩)⟩
          rw [CipherState.rekey_eq_error stuck]
          exact withCipher_cipher session channel
        · cases made

/-- All that a call can do: it is refused, it takes over the outcome of a handshake step
or the result of a transport cipher, or it replaces a cipher.  A transport cipher that
fails is what it was. -/
theorem call_cases (session : Session) (call : Call) :
    (∃ error, session.call call = session.refuse error) ∨
    (∃ maximum result, session.call call = session.commit maximum result) ∨
    (∃ channel result, session.call call = session.commitTransport channel result ∧
      ∀ halt, result = .error halt → halt.state = session.cipher channel) ∨
    ∃ channel cipher,
      session.call call =
        { session := session.withCipher channel cipher, result := .ok [] } := by
  cases call with
  | send generate plaintext =>
      simp only [Session.call, send]
      split
      · exact .inl ⟨_, rfl⟩
      · split
        · split
          · split
            · exact .inr (.inl ⟨_, _, rfl⟩)
            · exact .inl ⟨_, rfl⟩
          · exact .inl ⟨_, rfl⟩
        · split
          · exact .inl ⟨_, rfl⟩
          · split
            · exact .inl ⟨_, rfl⟩
            · refine .inr (.inr (.inl ⟨_, _, rfl, fun _ failed => ?_⟩))
              exact (CipherState.encrypt_eq_error failed).1
  | recv generate message =>
      simp only [Session.call, recv]
      split
      · exact .inl ⟨_, rfl⟩
      · split
        · exact .inl ⟨_, rfl⟩
        · split
          · split
            · split
              · exact .inr (.inl ⟨_, _, rfl⟩)
              · exact .inl ⟨_, rfl⟩
            · exact .inl ⟨_, rfl⟩
          · split
            · exact .inl ⟨_, rfl⟩
            · refine .inr (.inr (.inl ⟨_, _, rfl, fun _ failed => ?_⟩))
              exact (CipherState.decrypt_eq_error failed).1
  | rekey action =>
      simp only [Session.call]
      cases rekeyed : session.rekey action with
      | error halt =>
          have same := (rekey_eq_error rekeyed).1
          exact .inl ⟨halt.error, congrArg (refuse · halt.error) same⟩
      | ok next =>
          obtain ⟨-, channel, cipher, -, -, rfl⟩ := of_rekey rekeyed
          exact .inr (.inr (.inr ⟨channel, cipher, rfl⟩))

variable {channel : Channel} {error : ProtocolError}

theorem protocol_withCipher (cipher : CipherState) :
    (session.withCipher channel cipher).protocol = session.protocol := by
  cases channel <;> rfl

theorem protocol_fail (drewKey : Bool) :
    (session.fail error drewKey).session.protocol = session.protocol := by
  simp only [fail, afterError]
  split <;> rfl

theorem protocol_commit (maximum : Option Nat) (result : Except Stopped Outcome) :
    (session.commit maximum result).session.protocol = session.protocol := by
  cases result with
  | error stopped => exact protocol_fail _
  | ok outcome =>
      simp only [commit]
      split
      · exact protocol_fail _
      · simp only [advance]
        split <;> rfl

theorem protocol_commitTransport
    (result : Except (Halt CipherState) (Bytes × CipherState)) :
    (session.commitTransport channel result).session.protocol = session.protocol := by
  cases result with
  | error halt => exact (protocol_fail _).trans (protocol_withCipher _)
  | ok pair => exact protocol_withCipher _

/-- No call changes the protocol. -/
theorem protocol_call (call : Call) :
    (session.call call).session.protocol = session.protocol := by
  rcases call_cases session call with ⟨error, made⟩ | ⟨maximum, result, made⟩
    | ⟨channel, result, made, -⟩ | ⟨channel, cipher, made⟩
  · rw [made, refuse]
  · rw [made, protocol_commit]
  · rw [made, protocol_commitTransport]
  · rw [made, protocol_withCipher]

theorem protocol_after (calls : List Call) :
    (session.after calls).protocol = session.protocol := by
  induction calls generalizing session with
  | nil => rfl
  | cons call rest ih => exact ih.trans (protocol_call call)

section Passive

variable (passive : session.protocol.attacker = .passive)
include passive

/-- A failure leaves the session as it was. -/
theorem session_fail (drewKey : Bool) :
    (session.fail error drewKey).session = session := by
  simp [fail, afterError, passive]

theorem session_commit_of_error {maximum : Option Nat} {result : Except Stopped Outcome}
    (failed : (session.commit maximum result).result = .error error) :
    (session.commit maximum result).session = session := by
  cases result with
  | error stopped => exact session_fail passive _
  | ok outcome =>
      -- The message has been produced, and may still be refused for its length.
      simp only [commit] at failed ⊢
      by_cases tooLarge : maximum.any (· < outcome.message.length)
      · rw [if_pos tooLarge]
        exact session_fail passive _
      · rw [if_neg tooLarge] at failed
        cases failed

theorem session_commitTransport_of_error
    {result : Except (Halt CipherState) (Bytes × CipherState)}
    (keeps : ∀ halt, result = .error halt → halt.state = session.cipher channel)
    (failed : (session.commitTransport channel result).result = .error error) :
    (session.commitTransport channel result).session = session := by
  cases result with
  | error halt =>
      rw [commitTransport_error (keeps halt rfl)]
      exact session_fail passive _
  | ok pair => cases failed

/-- A call that fails leaves the session as it was. -/
theorem session_call_of_error {call : Call}
    (failed : (session.call call).result = .error error) :
    (session.call call).session = session := by
  rcases call_cases session call with ⟨cause, made⟩ | ⟨maximum, result, made⟩
    | ⟨channel, result, made, keeps⟩ | ⟨channel, cipher, made⟩
  · rw [made, refuse]
  · rw [made] at failed ⊢
    exact session_commit_of_error passive failed
  · rw [made] at failed ⊢
    exact session_commitTransport_of_error passive keeps failed
  · rw [made] at failed
    cases failed

/-- Some calls lead where those of them lead that succeed. -/
theorem after_successes (calls : List Call) :
    session.after (session.successes calls) = session.after calls := by
  induction calls generalizing session with
  | nil => rfl
  | cons call rest ih =>
      have stillPassive : (session.call call).session.protocol.attacker = .passive := by
        rw [protocol_call, passive]
      rw [successes]
      cases made : (session.call call).result with
      | ok bytes => exact ih stillPassive
      | error error =>
          have same := session_call_of_error passive made
          have onward := congrArg
            (fun next => next.after (successes (session.call call).session rest)) same
          exact onward.symm.trans (ih stillPassive)

end Passive

/-- Failed calls leave no trace under a passive attacker.  After any history of calls, a
call that fails leaves the whole session as it was, so that every later call does what
it would have done without the failed one; and the session is the one that the calls
that succeeded lead to by themselves. -/
theorem failed_calls_leave_no_trace {draft : Draft} {suite : Suite}
    {protocol : Protocol} {role : Role} {prologue : Bytes} {keys : Keys}
    {session : Session}
    (compiled : Protocol.compile draft suite .passive = .ok protocol)
    (started : start protocol role prologue keys = .ok session) (history : List Call) :
    (∀ call error, ((session.after history).call call).result = .error error →
      ((session.after history).call call).session = session.after history ∧
      ∀ later, (((session.after history).call call).session).call later =
        (session.after history).call later) ∧
    session.after (session.successes history) = session.after history := by
  obtain ⟨-, -, attacker⟩ := Protocol.isCompiled_of_compile compiled
  have passive : session.protocol.attacker = .passive := by
    obtain ⟨-, handshake, -, rfl⟩ := of_start started
    exact attacker
  refine ⟨?_, after_successes passive history⟩
  intro call error failed
  have same : ((session.after history).call call).session = session.after history :=
    session_call_of_error (by rw [protocol_after, passive]) failed
  refine ⟨same, ?_⟩
  intro later
  rw [same]

open Catalog in
/-- A responder survives a message that ends in the middle of the second key, when the
first has been taken in already, and a call that comes too early. -/
theorem failed_calls_leave_no_trace_of_IX :
    ∃ protocol session step handshake stopped,
      Protocol.compile
        (entry "IX" [] [Catalog.send [e, s], Catalog.recv [e, ee, se, s, es]]).toDraft
        {} .passive = .ok protocol ∧
      start protocol .responder []
        { s := some (.ofPrivateKey (default : PrivateKey .curve25519)) } = .ok session ∧
      session.protocol.steps[session.counter]? = some step ∧
      session.handshake = some handshake ∧ handshake.re = none ∧
      handshake.read session.protocol.suite (fun _ => default) step.read
        (List.replicate 40 7) = .error stopped ∧
      stopped.machine.state.re = some (List.replicate 32 7) ∧
      let reached :=
        session.after [.recv (fun _ => default) (List.replicate 40 7), .rekey .send]
      (reached.call (.recv (fun _ => default) (List.replicate 40 9))).result =
        .error (.tooShort 32 8) ∧
      (reached.call (.recv (fun _ => default) (List.replicate 40 9))).session =
        reached ∧
      session = reached := by
  obtain ⟨protocol, session, step, handshake, stopped, compiled, started, found,
      going, unset, stops, learned, failed, none⟩ :
    ∃ protocol session step handshake stopped,
      Protocol.compile
        (entry "IX" [] [Catalog.send [e, s], Catalog.recv [e, ee, se, s, es]]).toDraft
        {} .passive = .ok protocol ∧
      start protocol .responder []
        { s := some (.ofPrivateKey (default : PrivateKey .curve25519)) } = .ok session ∧
      session.protocol.steps[session.counter]? = some step ∧
      session.handshake = some handshake ∧ handshake.re = none ∧
      handshake.read session.protocol.suite (fun _ => default) step.read
        (List.replicate 40 7) = .error stopped ∧
      stopped.machine.state.re = some (List.replicate 32 7) ∧
      ((session.after [.recv (fun _ => default) (List.replicate 40 7),
        .rekey .send]).call
        (.recv (fun _ => default) (List.replicate 40 9))).result =
          .error (.tooShort 32 8) ∧
      session.successes [.recv (fun _ => default) (List.replicate 40 7), .rekey .send] =
        [] :=
    ⟨_, _, _, _, _, rfl, rfl, rfl, rfl, rfl, rfl, rfl, rfl, rfl⟩
  obtain ⟨unchanged, traceless⟩ := failed_calls_leave_no_trace compiled started
    [.recv (fun _ => default) (List.replicate 40 7), .rekey .send]
  rw [none] at traceless
  exact ⟨protocol, session, step, handshake, stopped, compiled, started, found,
    going, unset, stops, learned, failed, (unchanged _ _ failed).1, traceless⟩

end Noise.Session
