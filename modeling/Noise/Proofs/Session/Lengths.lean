import Noise.Proofs.Handshake.Lengths
import Noise.Proofs.Session.Turns

/-!
# Lengths of the handshake messages of a session

The pattern and the suite fix how much longer each handshake message is than
its payload.  Whatever a session has been through, what it sends and what it
accepts has that length.
-/

namespace Noise

/-! ## What the pattern fixes -/

namespace Pattern

/-- The tokens of the message at an index. -/
def tokensAt (pattern : Pattern) (index : Nat) : List Token :=
  (pattern.messages[index]?.map (·.tokens)).getD []

/-- The tokens that come before the one at a place of a message, in the order
of the messages. -/
def tokensBefore (pattern : Pattern) (index place : Nat) : List Token :=
  (pattern.messages.take index).flatMap (·.tokens) ++
    (pattern.tokensAt index).take place

end Pattern

/-- The bytes of a handshake message besides its payload: those of its tokens, where a
static key has a tag once an earlier token bears a key, and the tag of the payload from
the first message on that can hold ciphertext. -/
def Protocol.fixedLength (protocol : Protocol) (index : Nat) : Nat :=
  let hasPsk := protocol.pattern.messages.any (·.tokens.contains .psk)
  ((protocol.pattern.tokensAt index).mapIdx fun place token =>
      token.wireLength protocol.suite.dh
        ((protocol.pattern.tokensBefore index place).any (·.bearsKey hasPsk))).sum +
    if protocol.analysis.firstEncryptingIndex.any (· ≤ index) then tagLength else 0

/-- The sum over the places is the length of the tokens one after the other. -/
theorem sum_mapIdx_wireLength (dh : DhFunction) (hasPsk : Bool)
    (earlier tokens : List Token) :
    (tokens.mapIdx fun place token =>
      token.wireLength dh
        ((earlier ++ tokens.take place).any (·.bearsKey hasPsk))).sum =
      tokensLength dh hasPsk (earlier.any (·.bearsKey hasPsk)) tokens := by
  induction tokens generalizing earlier with
  | nil => rfl
  | cons token rest ih =>
      have later := ih (earlier ++ [token])
      rw [List.any_append, List.any_cons, List.any_nil, Bool.or_false] at later
      rw [List.mapIdx_cons, List.sum_cons, tokensLength, ← later]
      simp

namespace Protocol.IsCompiled

variable {protocol : Protocol} (compiled : protocol.IsCompiled) {index : Nat}
  {message : Message}
include compiled

theorem any_earlier :
    ((protocol.pattern.messages.take index).flatMap (·.tokens)).any
      (·.bearsKey protocol.analysis.hasPsk) =
      protocol.analysis.isKeyedBefore index := by
  rw [compiled.analysis_eq, Analysis.isKeyedBefore_ofMessages, List.any_flatMap]

/-- The bytes that the pattern fixes are those around the payload. -/
theorem fixedLength_eq (there : protocol.pattern.messages[index]? = some message) :
    protocol.fixedLength index =
      frameLength protocol.suite.dh protocol.analysis.hasPsk
        (protocol.analysis.isKeyedBefore index) message.tokens := by
  have tokens : protocol.pattern.tokensAt index = message.tokens := by
    rw [Pattern.tokensAt, there]; rfl
  have tagged : protocol.analysis.firstEncryptingIndex.any (· ≤ index) =
      protocol.analysis.isKeyedBefore (index + 1) := by
    simp only [Analysis.isKeyedBefore, Nat.lt_succ_iff]
  simp only [Protocol.fixedLength, Pattern.tokensBefore, tokens]
  rw [← compiled.hasPsk_eq, sum_mapIdx_wireLength, compiled.any_earlier, tagged,
    compiled.isKeyedBefore_succ there]
  rfl

end Protocol.IsCompiled

/-! ## Sessions -/

namespace Session

variable {session : Session} {generate : KeyGenerator} {message payload : Bytes}

/-- A handshake message that was accepted is the outcome of the step that is due. -/
theorem of_recv_handshake
    (received : (session.recv generate message).result = .ok payload)
    (early : session.counter ≤ session.protocol.finalIndex) :
    ∃ step state outcome,
      session.due = some (step, state) ∧
      state.read session.protocol.suite generate step.read message = .ok outcome ∧
      outcome.message = payload := by
  have answers := answers_call session (.recv generate message)
  change ((session.call (.recv generate message)).result) = .ok payload at received
  generalize session.call (.recv generate message) = reply at answers received
  cases answers with
  | refused | failed => cases received
  | exchanged usable exchanges =>
      cases exchanges with
      | read due turn read => exact ⟨_, _, _, due, read, Except.ok.inj received⟩
  | transported usable late => exact absurd early (Nat.not_le.2 late)
  | rekeyed same => cases same

end Session

namespace Run

variable {protocol : Protocol} {run : Run protocol} {step : Step}
  {state : HandshakeState} {call : Session.Call} {error : ProtocolError}

theorem IsDue.hasKey_eq {message : Message} {begun : HandshakeState}
    (isDue : run.IsDue message begun state) (compiled : protocol.IsCompiled) :
    state.symmetric.hasKey = protocol.analysis.isKeyedBefore run.session.counter :=
  (isDue.leads.reaches isDue.started).hasKey_eq compiled isDue.early

/-- The message that is due is written with the length that the pattern fixes. -/
theorem ends_of_write (compiled : protocol.IsCompiled)
    (due : run.session.due = some (step, state)) (generate : KeyGenerator)
    (payload : Bytes) :
    match state.write protocol.suite generate step.write payload with
    | .ok outcome =>
        outcome.message.length = protocol.fixedLength run.session.counter +
          payload.length
    | .error stopped => stopped.error.isOfDecryptedKey = false := by
  obtain ⟨message, begun, rfl, isDue⟩ := isDue_of_due compiled due
  rw [compiled.fixedLength_eq isDue.there, ← isDue.hasKey_eq compiled]
  exact Interpreter.ends_of_write (isDue.ofFunction compiled) payload

/-- The message that is due is read with the length that the pattern fixes. -/
theorem ends_of_read (compiled : protocol.IsCompiled)
    (due : run.session.due = some (step, state)) (generate : KeyGenerator)
    (input : Bytes) :
    match state.read protocol.suite generate step.read input with
    | .ok outcome =>
        outcome.message.length + protocol.fixedLength run.session.counter = input.length
    | .error stopped => stopped.error.isOfDecryptedKey = false := by
  obtain ⟨message, begun, rfl, isDue⟩ := isDue_of_due compiled due
  have keyed := isDue.hasKey_eq compiled
  rw [compiled.fixedLength_eq isDue.there, ← keyed]
  exact Interpreter.ends_of_read keyed input

/-- No call fails over the length of a decrypted key. -/
theorem isOfDecryptedKey_of_call (compiled : protocol.IsCompiled)
    (failed : (run.session.call call).result = .error error) :
    error.isOfDecryptedKey = false := by
  have phase := run.phase compiled
  have sameProtocol := run.protocol_session
  have answers := Session.answers_call run.session call
  generalize run.session.call call = reply at answers failed
  cases answers with
  | refused refuses =>
      obtain rfl := Except.error.inj failed
      apply ProtocolError.isOfDecryptedKey_of_kind
      obtain ⟨-, kind | ⟨kind, -⟩⟩ :=
        refuses.isRefusal phase (isCompiled_session compiled run) <;> simp [kind]
  | failed usable fails =>
      obtain rfl := Except.error.inj failed
      cases fails with
      | @write generate payload step state stopped due turn ran =>
          have ends := ends_of_write compiled due generate payload
          rw [sameProtocol] at ran
          rw [ran] at ends
          exact ends
      | @read generate input step state stopped due turn ran =>
          have ends := ends_of_read compiled due generate input
          rw [sameProtocol] at ran
          rw [ran] at ends
          exact ends
      | longMessage => rfl
      | encrypt cause =>
          rw [(phase.wellFormed _).encrypt_eq_error cause]
          rfl
      | decrypt cause =>
          rcases (phase.wellFormed _).decrypt_eq_error cause with exhausted | mismatch
          · rw [exhausted]
            rfl
          · rw [mismatch]
            rfl
  | exchanged | transported | rekeyed => cases failed

/-- While the handshake lasts, every message that a session sends has exactly the bytes
that the pattern fixes besides its payload, and fits into a message; a payload with
which it would not fit is refused for its length, and for no other reason if its program
succeeds.  Every payload that a session accepts is shorter than its message by exactly
those bytes, so that shorter messages are rejected.  No session ever fails over the
length of a decrypted key. -/
theorem handshake_messages_have_fixed_overhead {draft : Draft} {suite : Suite}
    {attacker : AttackerModel} {protocol : Protocol}
    (compiled : Protocol.compile draft suite attacker = .ok protocol)
    (run : Run protocol) :
    (run.session.counter ≤ protocol.finalIndex →
      (∀ generate payload message,
        (run.session.send generate payload).result = .ok message →
        message.length = protocol.fixedLength run.session.counter + payload.length ∧
          message.length ≤ maxMessageLength) ∧
      (∀ step state generate payload outcome, run.session.failed = false →
        run.session.due = some (step, state) → step.sender = run.session.role →
        state.write suite generate step.write payload = .ok outcome →
        (run.session.send generate payload).result =
          if maxMessageLength <
              protocol.fixedLength run.session.counter + payload.length then
            .error
              (.tooLarge (protocol.fixedLength run.session.counter + payload.length))
          else .ok outcome.message) ∧
      (∀ generate message payload,
        (run.session.recv generate message).result = .ok payload →
        payload.length + protocol.fixedLength run.session.counter = message.length) ∧
      ∀ generate message, message.length < protocol.fixedLength run.session.counter →
        ∃ error, (run.session.recv generate message).result = .error error) ∧
    ∀ call expected got,
      (run.session.call call).result ≠ .error (.decryptedKeyLength expected got) := by
  obtain ⟨wellFormed, rfl, -⟩ := Protocol.isCompiled_of_compile compiled
  have sameProtocol := run.protocol_session
  refine ⟨fun early => ?_, ?_⟩
  · rw [← congrArg Protocol.finalIndex sameProtocol] at early
    have accepted : ∀ generate message payload,
        (run.session.recv generate message).result = .ok payload →
        payload.length + protocol.fixedLength run.session.counter = message.length := by
      intro generate message payload received
      obtain ⟨step, state, outcome, due, read, rfl⟩ :=
        Session.of_recv_handshake received early
      have ends := ends_of_read wellFormed due generate message
      rw [sameProtocol] at read
      rw [read] at ends
      exact ends
    refine ⟨?_, ?_, accepted, ?_⟩
    · intro generate payload message sent
      obtain ⟨-, step, state, outcome, found, going, -, written, rfl, fits, -⟩ :=
        Session.of_send_handshake sent early
      have ends :=
        ends_of_write wellFormed
          (Session.due_eq_some.2 ⟨early, found, going⟩) generate payload
      rw [sameProtocol] at written
      rw [written] at ends
      exact ⟨ends, fits⟩
    · intro step state generate payload outcome usable due turn written
      have ends := ends_of_write wellFormed due generate payload
      rw [written] at ends
      obtain ⟨-, found, going⟩ := Session.due_eq_some.1 due
      rw [Session.send_handshake usable early found going turn, sameProtocol, written,
        Session.commit, ← ends]
      simp only [Option.any_some, decide_eq_true_eq]
      split <;> rfl
    · intro generate message short
      cases result : (run.session.recv generate message).result with
      | error error => exact ⟨error, rfl⟩
      | ok payload =>
          have whole := accepted generate message payload result
          omega
  · intro call expected got failed
    cases isOfDecryptedKey_of_call wellFormed failed

open Catalog in
/-- The first message of a handshake shows the static key, and the second hides one.
The longest payload of the first leaves room for just two keys, and an answer that is
too short for the second is rejected. -/
theorem handshake_messages_have_fixed_overhead_of_IX :
    ∃ protocol, ∃ fresh run : Run protocol, ∃ message error,
      Protocol.compile (entry "IX" []
        [Catalog.send [e, s], Catalog.recv [e, ee, se, s, es]]).toDraft {} .passive =
        .ok protocol ∧
      protocol.fixedLength fresh.session.counter = 64 ∧
      protocol.fixedLength run.session.counter = 96 ∧
      (fresh.session.send (fun _ => default) (List.replicate 65471 7)).result =
        .ok message ∧ message.length = 65535 ∧
      (fresh.session.send (fun _ => default) (List.replicate 65472 7)).result =
        .error (.tooLarge 65536) ∧
      (run.session.recv (fun _ => default) (List.replicate 95 7)).result =
        .error error := by
  obtain ⟨protocol, begun, step, state, compiled, started, early, later, first, second,
      usable, due, turn, written⟩ :
      ∃ protocol begun step state,
        Protocol.compile (entry "IX" []
          [Catalog.send [e, s], Catalog.recv [e, ee, se, s, es]]).toDraft {} .passive =
          .ok protocol ∧
        Session.start protocol .initiator []
          { s := some (.ofPrivateKey (default : PrivateKey .curve25519)) } = .ok begun ∧
        begun.counter ≤ protocol.finalIndex ∧
        (begun.follow [.call (.send (fun _ => default) [])]).counter ≤
          protocol.finalIndex ∧
        protocol.fixedLength begun.counter = 64 ∧
        protocol.fixedLength (begun.follow
          [.call (.send (fun _ => default) [])]).counter = 96 ∧
        begun.failed = false ∧ begun.due = some (step, state) ∧
        step.sender = begun.role ∧
        ∀ payload, ∃ outcome,
          state.write {} (fun _ => default) step.write payload = .ok outcome :=
    ⟨_, _, _, _, rfl, rfl, Nat.zero_le _, Nat.le_refl 1, rfl, rfl, rfl, rfl, rfl,
      fun _ => ⟨_, rfl⟩⟩
  let keys : Keys := { s := some (.ofPrivateKey (default : PrivateKey .curve25519)) }
  let fresh : Run protocol :=
    { role := .initiator, prologue := [], keys, begun, started, history := [] }
  let run : Run protocol :=
    { role := .initiator, prologue := [], keys, begun, started,
      history := [.call (.send (fun _ => default) [])] }
  obtain ⟨⟨sends, decides, -⟩, -⟩ :=
    (handshake_messages_have_fixed_overhead compiled fresh).imp_left (· early)
  obtain ⟨⟨-, -, -, rejects⟩, -⟩ :=
    (handshake_messages_have_fixed_overhead compiled run).imp_left (· later)
  obtain ⟨outcome, fits⟩ := written (List.replicate 65471 7)
  obtain ⟨long, tooLong⟩ := written (List.replicate 65472 7)
  have sent := decides step state _ _ outcome usable due turn fits
  have refused := decides step state _ _ long usable due turn tooLong
  rw [show protocol.fixedLength fresh.session.counter = 64 from first,
    List.length_replicate] at sent refused
  obtain ⟨length, -⟩ := sends _ _ _ (sent.trans (if_neg (by decide)))
  rw [show protocol.fixedLength fresh.session.counter = 64 from first,
    List.length_replicate] at length
  obtain ⟨error, rejected⟩ := rejects (fun _ => default) (List.replicate 95 7) (by
    rw [show protocol.fixedLength run.session.counter = 96 from second,
      List.length_replicate]
    decide)
  exact ⟨protocol, fresh, run, outcome.message, error, compiled, first, second,
    sent.trans (if_neg (by decide)), length, refused.trans (if_pos (by decide)),
    rejected⟩

end Run

end Noise
