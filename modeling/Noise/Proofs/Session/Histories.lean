import Mathlib.Data.List.Basic
import Noise.Proofs.Handshake.WellFormed
import Noise.Proofs.Handshake.Wire
import Noise.Proofs.Session.Calls

/-!
# Histories of a session

Between its start and its end a session is called and may be cleared.  This module says
once and for all what a call can come to, and keeps a record of the messages that a
session has sent and received and of what each of them gave the transcript.
-/

namespace Noise

/-- A message that was sent or received, and what it gave the transcript. -/
structure Passage where
  wire : Bytes
  entries : List Entry

/-! ## What a call comes to -/

namespace Session

variable {session : Session} {generate : KeyGenerator} {plaintext message : Bytes}
  {channel : Channel} {error : ProtocolError}

/-- The step of the handshake that is due, with the state before it. -/
def due (session : Session) : Option (Step × HandshakeState) :=
  if session.counter ≤ session.protocol.finalIndex then
    match session.protocol.steps[session.counter]?, session.handshake with
    | some step, some state => some (step, state)
    | _, _ => none
  else none

theorem due_eq_some {step : Step} {state : HandshakeState} :
    session.due = some (step, state) ↔
      session.counter ≤ session.protocol.finalIndex ∧
        session.protocol.steps[session.counter]? = some step ∧
        session.handshake = some state := by
  by_cases early : session.counter ≤ session.protocol.finalIndex
  · cases found : session.protocol.steps[session.counter]? <;> cases going :
      session.handshake <;>
      simp [due, early, found, going]
  · simp [due, early]

theorem due_eq_none
    (missing : ∀ step state,
      session.protocol.steps[session.counter]? = some step →
      session.handshake = some state → False) :
    session.due = none := by
  cases going : session.due with
  | none => rfl
  | some entry =>
      obtain ⟨-, found, held⟩ := due_eq_some.1 going
      exact absurd held (missing _ _ found)

/-- Calls that are refused before anything has been tried. -/
inductive Refuses (session : Session) : Call → ProtocolError → Prop where
  | sequencing {call : Call} {error : ProtocolError} :
      error.kind = .sequencing → Refuses session call error
  | longInput {generate : KeyGenerator} {message : Bytes} :
      maxMessageLength < message.length →
      Refuses session (.recv generate message) (.tooLarge message.length)
  | longText {generate : KeyGenerator} {plaintext : Bytes} :
      session.failed = false → session.protocol.finalIndex < session.counter →
      maxMessageLength < plaintext.length + tagLength →
      Refuses session (.send generate plaintext)
        (.tooLarge (plaintext.length + tagLength))
  | corrupt {call : Call} :
      session.failed = false → session.counter ≤ session.protocol.finalIndex →
      session.due = none →
      Refuses session call .corrupt
  | rekey {action : Action} {channel : Channel} {halt : Halt CipherState} :
      (session.cipher channel).rekey session.protocol.suite.cipher = .error halt →
      Refuses session (.rekey action) halt.error

/-- Calls that are tried and fail. -/
inductive Fails (session : Session) : Call → ProtocolError → Prop where
  | write {generate : KeyGenerator} {plaintext : Bytes} {step : Step}
      {state : HandshakeState} {stopped : Stopped} :
      session.due = some (step, state) → step.sender = session.role →
      state.write session.protocol.suite generate step.write plaintext =
        .error stopped →
      Fails session (.send generate plaintext) stopped.error
  | read {generate : KeyGenerator} {message : Bytes} {step : Step}
      {state : HandshakeState} {stopped : Stopped} :
      session.due = some (step, state) → step.receiver = session.role →
      state.read session.protocol.suite generate step.read message = .error stopped →
      Fails session (.recv generate message) stopped.error
  | longMessage {generate : KeyGenerator} {plaintext : Bytes} {step : Step}
      {state : HandshakeState} {outcome : Outcome} :
      session.due = some (step, state) → step.sender = session.role →
      state.write session.protocol.suite generate step.write plaintext = .ok outcome →
      Fails session (.send generate plaintext) (.tooLarge outcome.message.length)
  | encrypt {generate : KeyGenerator} {plaintext : Bytes} {channel : Channel}
      {halt : Halt CipherState} :
      (session.cipher channel).encrypt session.protocol.suite.cipher [] plaintext =
        .error halt →
      Fails session (.send generate plaintext) halt.error
  | decrypt {generate : KeyGenerator} {message : Bytes} {channel : Channel}
      {halt : Halt CipherState} :
      (session.cipher channel).decrypt session.protocol.suite.cipher [] message =
        .error halt →
      Fails session (.recv generate message) halt.error

/-- Calls that carry a handshake message out. -/
inductive Exchanges (session : Session) : Call → Passage → Outcome → Prop where
  | write {generate : KeyGenerator} {payload : Bytes} {step : Step}
      {state : HandshakeState} {outcome : Outcome} :
      session.due = some (step, state) → step.sender = session.role →
      state.write session.protocol.suite generate step.write payload = .ok outcome →
      Exchanges session (.send generate payload)
        { wire := outcome.message
          entries :=
            Machine.transcript session.protocol.suite generate
              { state, frame := { payload } } step.write }
        outcome
  | read {generate : KeyGenerator} {input : Bytes} {step : Step}
      {state : HandshakeState} {outcome : Outcome} :
      session.due = some (step, state) → step.receiver = session.role →
      state.read session.protocol.suite generate step.read input = .ok outcome →
      Exchanges session (.recv generate input)
        { wire := input
          entries :=
            Machine.transcript session.protocol.suite generate
              { state, frame := { input } } step.read }
        outcome

/-- Calls that carry a transport message out: the message on the wire, the bytes that
come back, and the cipher afterwards. -/
inductive Transports (session : Session) : Call → Channel → Bytes → Bytes →
    CipherState → Prop where
  | encrypt {generate : KeyGenerator} {plaintext message : Bytes} {channel : Channel}
      {next : CipherState} :
      (session.cipher channel).encrypt session.protocol.suite.cipher [] plaintext =
        .ok (message, next) →
      Transports session (.send generate plaintext) channel message message next
  | decrypt {generate : KeyGenerator} {plaintext message : Bytes} {channel : Channel}
      {next : CipherState} :
      (session.cipher channel).decrypt session.protocol.suite.cipher [] message =
        .ok (plaintext, next) →
      Transports session (.recv generate message) channel message plaintext next

variable {call : Call} {passage : Passage} {outcome : Outcome}

/-- A handshake message is carried out as the pattern says. -/
theorem Exchanges.carries (exchanges : session.Exchanges call passage outcome)
    (compiled : session.protocol.IsCompiled) :
    session.counter ≤ session.protocol.finalIndex ∧
      ∃ state message, session.handshake = some state ∧
        session.protocol.pattern.messages[session.counter]? = some message ∧
        state.Carries session.protocol.suite
          (.ofAnalysis session.protocol.analysis session.counter)
          message.tokens passage.entries passage.wire outcome := by
  cases exchanges with
  | write going _ written =>
      obtain ⟨early, found, held⟩ := due_eq_some.1 going
      obtain ⟨message, there, rfl⟩ := compiled.eq_ofMessage early found
      exact ⟨early, _, message, held, there, HandshakeState.carries_of_write written⟩
  | read going _ read =>
      obtain ⟨early, found, held⟩ := due_eq_some.1 going
      obtain ⟨message, there, rfl⟩ := compiled.eq_ofMessage early found
      exact ⟨early, _, message, held, there, HandshakeState.carries_of_read read⟩

/-- The final message ends the handshake with what its transcript makes, and every other
message hands the transcript on. -/
theorem Exchanges.ends_or_goes_on (exchanges : session.Exchanges call passage outcome)
    (compiled : session.protocol.IsCompiled) {state : HandshakeState}
    (held : session.handshake = some state) :
    let chain :=
      passage.entries.foldl (·.mix session.protocol.suite) state.symmetric.chain
    session.counter = session.protocol.finalIndex ∧
        outcome.ending = some (chain.ending session.protocol.suite) ∨
      session.counter < session.protocol.finalIndex ∧ outcome.ending = none ∧
        outcome.state.symmetric.chain = chain := by
  obtain ⟨early, known, message, same, -, carries⟩ := exchanges.carries compiled
  obtain rfl := Option.some.inj (same.symm.trans held)
  have isFinal := compiled.isFinal_ofAnalysis session.counter
  have ends := carries.ending
  by_cases final : session.counter = session.protocol.finalIndex
  · rw [isFinal, beq_iff_eq.2 final] at ends
    exact .inl ⟨final, ends⟩
  · rw [beq_false_of_ne final] at isFinal
    rw [isFinal] at ends
    exact .inr ⟨Nat.lt_of_le_of_ne early final, ends, carries.chain isFinal⟩

theorem Exchanges.wellFormed (exchanges : session.Exchanges call passage outcome)
    (before : ∀ state ∈ session.handshake, state.WellFormed session.protocol.suite) :
    outcome.state.WellFormed session.protocol.suite ∧
      ∀ ending ∈ outcome.ending, ending.WellFormed session.protocol.suite := by
  cases exchanges with
  | write going _ written =>
      obtain ⟨-, -, held⟩ := due_eq_some.1 going
      exact (before _ held).write written
  | read going _ read =>
      obtain ⟨-, -, held⟩ := due_eq_some.1 going
      exact (before _ held).read read

theorem Transports.wellFormed {wire bytes : Bytes} {cipher : CipherState}
    (transports : session.Transports call channel wire bytes cipher)
    (before : (session.cipher channel).WellFormed) :
    cipher.WellFormed ∧ cipher.hasKey = (session.cipher channel).hasKey := by
  cases transports with
  | encrypt encrypted =>
      exact ⟨before.encrypt encrypted, CipherState.hasKey_of_encrypt encrypted⟩
  | decrypt decrypted =>
      exact ⟨before.decrypt decrypted, CipherState.hasKey_of_decrypt decrypted⟩

/-- All that a call can come to. -/
inductive Answers (session : Session) (call : Call) : Reply → Prop where
  | refused {error : ProtocolError} :
      session.Refuses call error → Answers session call (session.refuse error)
  | failed {error : ProtocolError} {drewKey : Bool} :
      session.failed = false → session.Fails call error →
      Answers session call (session.fail error drewKey)
  | exchanged {passage : Passage} {outcome : Outcome} :
      session.failed = false → session.Exchanges call passage outcome →
      Answers session call
        { session := session.advance outcome, result := .ok outcome.message,
          drewKey := outcome.drewKey }
  | transported {channel : Channel} {wire bytes : Bytes} {next : CipherState} :
      session.failed = false → session.protocol.finalIndex < session.counter →
      session.Transports call channel wire bytes next →
      Answers session call
        { session :=
            { session.withCipher channel next with counter := session.counter + 1 }
          result := .ok bytes }
  | rekeyed {action : Action} {channel : Channel} {next : CipherState} :
      call = .rekey action → session.failed = false →
      session.channel action = .ok channel →
      (session.cipher channel).rekey session.protocol.suite.cipher = .ok next →
      Answers session call
        { session := session.withCipher channel next, result := .ok [] }

theorem kind_of_channel {action : Action}
    (refused : session.channel action = .error error) :
    error.kind = .sequencing := by
  simp only [channel] at refused
  split at refused
  · obtain rfl := Except.error.inj refused
    rfl
  · split at refused
    · split at refused
      · cases refused
      · obtain rfl := Except.error.inj refused
        rfl
    · split at refused <;> cases refused

theorem answers_send (generate : KeyGenerator) (plaintext : Bytes) :
    session.Answers (.send generate plaintext) (session.send generate plaintext) := by
  cases usable : session.failed with
  | true =>
      rw [send, usable]
      exact .refused (.sequencing rfl)
  | false =>
      by_cases early : session.counter ≤ session.protocol.finalIndex
      · simp only [send, usable, early, Bool.false_eq_true, ↓reduceIte]
        split
        next step state found held =>
          have going : session.due = some (step, state) :=
            due_eq_some.2 ⟨early, found, held⟩
          split
          next turn =>
            cases written :
              state.write session.protocol.suite generate step.write plaintext with
            | error stopped => exact .failed usable (.write going turn written)
            | ok outcome =>
                simp only [commit]
                split
                · exact .failed usable (.longMessage going turn written)
                · exact .exchanged usable (.write going turn written)
          next => exact .refused (.sequencing rfl)
        next missing => exact .refused (.corrupt usable early (due_eq_none missing))
      · simp only [send, usable, early, Bool.false_eq_true, ↓reduceIte]
        split
        next error refused => exact .refused (.sequencing (kind_of_channel refused))
        next channel chosen =>
          split
          next long => exact .refused (.longText usable (Nat.not_le.1 early) long)
          next =>
            cases encrypted :
              (session.cipher channel).encrypt session.protocol.suite.cipher
                [] plaintext with
            | error halt =>
                rw [commitTransport_error (CipherState.encrypt_eq_error encrypted).1]
                exact .failed usable (.encrypt encrypted)
            | ok result =>
                exact .transported usable (Nat.not_le.1 early) (.encrypt encrypted)

theorem answers_recv (generate : KeyGenerator) (message : Bytes) :
    session.Answers (.recv generate message) (session.recv generate message) := by
  cases usable : session.failed with
  | true =>
      rw [recv, usable]
      exact .refused (.sequencing rfl)
  | false =>
      by_cases long : maxMessageLength < message.length
      · simp only [recv, usable, long, Bool.false_eq_true, ↓reduceIte]
        exact .refused (.longInput long)
      · by_cases early : session.counter ≤ session.protocol.finalIndex
        · simp only [recv, usable, long, early, Bool.false_eq_true, ↓reduceIte]
          split
          next step state found held =>
            have going : session.due = some (step, state) :=
              due_eq_some.2 ⟨early, found, held⟩
            split
            next turn =>
              cases read :
                state.read session.protocol.suite generate step.read message with
              | error stopped => exact .failed usable (.read going turn read)
              | ok outcome => exact .exchanged usable (.read going turn read)
            next => exact .refused (.sequencing rfl)
          next missing => exact .refused (.corrupt usable early (due_eq_none missing))
        · simp only [recv, usable, long, early, Bool.false_eq_true, ↓reduceIte]
          split
          next error refused => exact .refused (.sequencing (kind_of_channel refused))
          next channel chosen =>
            cases decrypted :
              (session.cipher channel).decrypt session.protocol.suite.cipher
                [] message with
            | error halt =>
                rw [commitTransport_error (CipherState.decrypt_eq_error decrypted).1]
                exact .failed usable (.decrypt decrypted)
            | ok result =>
                exact .transported usable (Nat.not_le.1 early) (.decrypt decrypted)

theorem answers_rekey (action : Action) :
    session.Answers (.rekey action) (session.call (.rekey action)) := by
  simp only [call]
  cases rekeyed : session.rekey action with
  | ok next =>
      obtain ⟨usable, channel, cipher, chosen, replaced, rfl⟩ := of_rekey rekeyed
      exact .rekeyed rfl usable chosen replaced
  | error halt =>
      obtain ⟨same, causes⟩ := rekey_eq_error rekeyed
      simp only [same]
      apply Answers.refused
      rcases causes with unusable | refused | ⟨channel, cause, stuck, sameError⟩
      · rw [unusable]
        exact .sequencing rfl
      · exact .sequencing (kind_of_channel refused)
      · rw [← sameError]
        exact .rekey stuck

theorem answers_call (session : Session) (call : Call) :
    session.Answers call (session.call call) := by
  cases call with
  | send generate plaintext => exact answers_send generate plaintext
  | recv generate message => exact answers_recv generate message
  | rekey action => exact answers_rekey action

end Session

/-! ## Events -/

/-- What happens to a session. -/
inductive Event where
  | call (call : Session.Call)
  | clear

namespace Session

variable {session : Session} {event : Event} {history later : List Event}

def next (session : Session) : Event → Session
  | .call call => (session.call call).session
  | .clear => session.clear

/-- The session after a history. -/
def follow (session : Session) (history : List Event) : Session :=
  history.foldl next session

/-- What running a program of the step that is due gives the transcript. -/
def entriesOf (session : Session) (generate : KeyGenerator) (frame : Frame)
    (program : Step → Program) :
    List Entry :=
  match session.due with
  | some (step, state) =>
      Machine.transcript session.protocol.suite generate { state, frame } (program step)
  | none => []

/-- The message that an event carries.  A call that does not return carries none. -/
def passage? (session : Session) : Event → Option Passage
  | .call call =>
      (session.call call).result.toOption.bind fun bytes =>
        match call with
        | .send generate payload =>
            some
              { wire := bytes
                entries := session.entriesOf generate { payload } Step.write }
        | .recv generate input =>
            some
              { wire := input
                entries := session.entriesOf generate { input } Step.read }
        | .rekey _ => none
  | .clear => none

/-- The messages that a history carries. -/
def passages (session : Session) : List Event → List Passage
  | [] => []
  | event :: rest =>
      (session.passage? event).toList ++ passages (session.next event) rest

/-- The first session in the course of a history whose handshake has ended. -/
def completed (session : Session) : List Event → Option Session
  | [] => if session.isComplete then some session else none
  | event :: rest =>
      if session.isComplete then some session else completed (session.next event) rest

/-- All that an event can do to a session. -/
inductive Moves (session : Session) : Option Passage → Session → Prop where
  | stays : Moves session none session
  | cleared : Moves session none session.clear
  | exchanged {call : Call} {passage : Passage} {outcome : Outcome} :
      session.failed = false → session.Exchanges call passage outcome →
      Moves session (some passage) (session.advance outcome)
  | transported {call : Call} {channel : Channel} {wire bytes : Bytes}
      {cipher : CipherState} :
      session.failed = false → session.protocol.finalIndex < session.counter →
      session.Transports call channel wire bytes cipher →
      Moves session (some { wire, entries := [] })
        { session.withCipher channel cipher with counter := session.counter + 1 }
  | rekeyed {action : Action} {channel : Channel} {cipher : CipherState} :
      session.failed = false → session.channel action = .ok channel →
      (session.cipher channel).rekey session.protocol.suite.cipher = .ok cipher →
      Moves session none (session.withCipher channel cipher)

theorem moves_afterError (session : Session) (error : ProtocolError) :
    session.Moves none (session.afterError error) := by
  rw [afterError]
  split
  · exact .cleared
  · exact .stays

theorem moves_next (session : Session) (event : Event) :
    session.Moves (session.passage? event) (session.next event) := by
  cases event with
  | clear => exact .cleared
  | call call =>
      have answers := answers_call session call
      rw [passage?, next]
      generalize session.call call = reply at answers
      cases answers with
      | refused => exact .stays
      | failed => exact moves_afterError session _
      | rekeyed made usable chosen replaced =>
          subst made
          exact .rekeyed usable chosen replaced
      | exchanged usable exchanges =>
          have moves := Moves.exchanged usable exchanges
          cases exchanges with
          | write going _ written =>
              simp only [Except.toOption, Option.bind_some, entriesOf, going]
              exact moves
          | read going _ read =>
              simp only [Except.toOption, Option.bind_some, entriesOf, going]
              exact moves
      | transported usable late transports =>
          have moves := Moves.transported usable late transports
          have ended : session.due = none := by
            rw [due, if_neg (Nat.not_le.2 late)]
          cases transports with
          | encrypt encrypted =>
              simp only [Except.toOption, Option.bind_some, entriesOf, ended]
              exact moves
          | decrypt decrypted =>
              simp only [Except.toOption, Option.bind_some, entriesOf, ended]
              exact moves

@[simp] theorem counter_withCipher {channel : Channel} {cipher : CipherState} :
    (session.withCipher channel cipher).counter = session.counter := by
  cases channel <;> rfl

theorem counter_advance (outcome : Outcome) :
    (session.advance outcome).counter = session.counter + 1 := by
  simp only [advance]
  split <;> rfl

/-- The counter counts the messages. -/
theorem Moves.counter_eq {passage : Option Passage} {after : Session}
    (moves : session.Moves passage after) :
    after.counter = session.counter + passage.toList.length := by
  cases moves with
  | stays | cleared | transported => rfl
  | rekeyed => exact counter_withCipher
  | exchanged => exact counter_advance _

theorem protocol_advance (outcome : Outcome) :
    (session.advance outcome).protocol = session.protocol := by
  simp only [advance]
  split <;> rfl

theorem Moves.protocol_eq {passage : Option Passage} {after : Session}
    (moves : session.Moves passage after) :
    after.protocol = session.protocol := by
  cases moves with
  | stays | cleared => rfl
  | transported | rekeyed => exact protocol_withCipher _
  | exchanged => exact protocol_advance _

theorem follow_append (session : Session) (history later : List Event) :
    session.follow (history ++ later) = (session.follow history).follow later :=
  List.foldl_append

theorem passages_append (session : Session) (history later : List Event) :
    session.passages (history ++ later) =
      session.passages history ++ (session.follow history).passages later := by
  induction history generalizing session with
  | nil => rfl
  | cons event rest ih =>
      rw [List.cons_append, passages, ih, passages, List.append_assoc]; rfl

theorem counter_follow (session : Session) (history : List Event) :
    (session.follow history).counter = session.counter +
      (session.passages history).length := by
  induction history generalizing session with
  | nil => rfl
  | cons event rest ih =>
      rw [passages, List.length_append, ← Nat.add_assoc,
        ← (moves_next session event).counter_eq]
      exact ih _

theorem protocol_follow (session : Session) (history : List Event) :
    (session.follow history).protocol = session.protocol := by
  induction history generalizing session with
  | nil => rfl
  | cons event rest ih => exact (ih _).trans (moves_next session event).protocol_eq

end Session

/-- A run of a protocol by one party: how its session started, and what has
happened to it. -/
structure Run (protocol : Protocol) where
  role : Role
  prologue : Bytes
  keys : Keys
  begun : Session
  started : Session.start protocol role prologue keys = .ok begun
  history : List Event

namespace Run

variable {protocol : Protocol} (run : Run protocol)

def session : Session := run.begun.follow run.history

/-- The messages that the session has sent and received, with what they gave
the transcript. -/
def passages : List Passage := run.begun.passages run.history

/-- These messages as they went over the wire. -/
def wire : List Bytes := run.passages.map (·.wire)

theorem protocol_begun : run.begun.protocol = protocol := by
  obtain ⟨-, handshake, -, begun⟩ := Session.of_start run.started
  rw [begun]

theorem protocol_session : run.session.protocol = protocol :=
  (Session.protocol_follow run.begun run.history).trans run.protocol_begun

theorem counter_session : run.session.counter = run.wire.length := by
  obtain ⟨-, handshake, -, begun⟩ := Session.of_start run.started
  have fresh : run.begun.counter = 0 := by rw [begun]
  rw [session, Session.counter_follow, fresh, Nat.zero_add, wire, List.length_map,
    passages]

end Run

end Noise
