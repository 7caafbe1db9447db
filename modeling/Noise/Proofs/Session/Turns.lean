import Noise.Proofs.Session.FailClosed

/-!
# The course of a handshake

The state of a session before a message is the one to which its earlier messages have
led from the state at the start, each message written or read as its turn says.
Therefore what a party's programs keep is kept by its session.  A call fails for its
order, for the length of a message or in a transport cipher, or because the program
whose turn it is has stopped.
-/

namespace Noise

/-! ## Messages in turn -/

/-- All that a role can do with a message: it writes the message or reads it. -/
inductive HandshakeState.Acts (suite : Suite) (role : Role) (state : HandshakeState)
    (step : Step) :
    Outcome → Prop where
  | write {generate : KeyGenerator} {payload : Bytes} {outcome : Outcome} :
      step.sender = role → state.write suite generate step.write payload = .ok outcome →
      Acts suite role state step outcome
  | read {generate : KeyGenerator} {input : Bytes} {outcome : Outcome} :
      step.receiver = role → state.read suite generate step.read input = .ok outcome →
      Acts suite role state step outcome

/-- The states to which messages lead a role, with the number of messages. -/
inductive Protocol.Leads (protocol : Protocol) (role : Role) (begun : HandshakeState) :
    Nat → HandshakeState → Prop where
  | start : Leads protocol role begun 0 begun
  | acts {index : Nat} {state : HandshakeState} {step : Step} {outcome : Outcome} :
      Leads protocol role begun index state → protocol.steps[index]? = some step →
      state.Acts protocol.suite role step outcome →
      Leads protocol role begun (index + 1) outcome.state

theorem Step.programFor_of_sender {step : Step} {role : Role}
    (turn : step.sender = role) :
    step.programFor role = step.write :=
  if_pos turn

theorem Step.programFor_of_receiver {step : Step} {role : Role}
    (turn : step.receiver = role) :
    step.programFor role = step.read := by
  apply if_neg
  rintro rfl
  exact step.sender.other_ne turn

/-- The role has run its program for the message. -/
theorem HandshakeState.Acts.ran {suite : Suite} {role : Role} {state : HandshakeState}
    {step : Step} {outcome : Outcome} (acts : state.Acts suite role step outcome) :
    ∃ generate payload input machine,
      Machine.run suite generate { state, frame := { payload, input } }
        (step.programFor role) = .ok machine ∧
        machine.state = outcome.state := by
  cases acts with
  | @write generate payload _ turn written =>
      obtain ⟨machine, ran, left⟩ := bind_eq_ok.1 written
      obtain rfl := Except.ok.inj left
      refine ⟨generate, payload, [], machine, ?_, rfl⟩
      rw [Step.programFor_of_sender turn]
      exact ran
  | @read generate input _ turn read =>
      obtain ⟨machine, ran, left⟩ := bind_eq_ok.1 read
      obtain rfl := Except.ok.inj left
      refine ⟨generate, [], input, machine, ?_, rfl⟩
      rw [Step.programFor_of_receiver turn]
      exact ran

namespace Protocol

variable {protocol : Protocol} {role : Role} {begun state : HandshakeState}
  {index : Nat}

theorem IsCompiled.le_finalIndex (compiled : protocol.IsCompiled) {step : Step}
    (found : protocol.steps[index]? = some step) : index ≤ protocol.finalIndex := by
  obtain ⟨inside, -⟩ := List.getElem?_eq_some_iff.1 found
  simp only [compiled.steps_eq, List.length_map, List.length_zipIdx,
    List.length_take] at inside
  omega

theorem IsCompiled.exists_eq_ofMessage (compiled : protocol.IsCompiled) {step : Step}
    (found : protocol.steps[index]? = some step) :
    ∃ message, protocol.pattern.messages[index]? = some message ∧
      step = Step.ofMessage protocol.suite protocol.attacker
        (.ofAnalysis protocol.analysis index) message :=
  compiled.eq_ofMessage (compiled.le_finalIndex found) found

theorem Leads.reaches {prologue : Bytes} {keys : Keys}
    (started : HandshakeState.start protocol role prologue keys = .ok begun)
    (leads : protocol.Leads role begun index state) :
    protocol.Reaches role index state := by
  induction leads with
  | start => exact .start prologue keys started
  | acts _ found acts ih =>
      cases acts with
      | write turn written => exact .write _ _ ih found turn written
      | read turn read => exact .read _ _ ih found turn read

/-- What no change of the keys destroys, no message destroys. -/
theorem Leads.keys {kept : Keys → Prop}
    (keeps : ∀ keys instruction next, keys.Changes protocol.suite.dh instruction next →
      kept keys → kept next)
    (before : kept begun.toKeys) (leads : protocol.Leads role begun index state) :
    kept state.toKeys := by
  induction leads with
  | start => exact before
  | acts _ _ acts ih =>
      obtain ⟨generate, payload, input, machine, ran, same⟩ := acts.ran
      rw [← same]
      exact Machine.keys_of_run keeps ran ih

end Protocol

/-! ## Sessions -/

namespace Session

variable {session : Session} {role : Role} {begun : HandshakeState} {call : Call}
  {error : ProtocolError}

theorem role_withCipher {channel : Channel} {cipher : CipherState} :
    (session.withCipher channel cipher).role = session.role := by
  cases channel <;> rfl

theorem role_advance (outcome : Outcome) :
    (session.advance outcome).role = session.role := by
  simp only [advance]
  split <;> rfl

theorem Moves.role_eq {passage : Option Passage} {after : Session}
    (moves : session.Moves passage after) :
    after.role = session.role := by
  cases moves with
  | stays | cleared => rfl
  | transported | rekeyed => exact role_withCipher
  | exchanged => exact role_advance _

/-- A session whose messages have led it, from that state, to where it is. -/
structure Follows (role : Role) (begun : HandshakeState) (session : Session) :
    Prop where
  role_eq : session.role = role
  leads : ∀ step state, session.due = some (step, state) →
    session.protocol.Leads role begun session.counter state

theorem Exchanges.acts {passage : Passage} {outcome : Outcome}
    (exchanges : session.Exchanges call passage outcome) :
    ∃ step state, session.due = some (step, state) ∧
      state.Acts session.protocol.suite session.role step outcome := by
  cases exchanges with
  | write going turn written => exact ⟨_, _, going, .write turn written⟩
  | read going turn read => exact ⟨_, _, going, .read turn read⟩

/-- A message that does not end the handshake leads one message further. -/
theorem Follows.advance {passage : Passage} {outcome : Outcome}
    (follows : session.Follows role begun)
    (exchanges : session.Exchanges call passage outcome) :
    (session.advance outcome).Follows role begun := by
  refine ⟨(role_advance outcome).trans follows.role_eq, ?_⟩
  intro later next due
  obtain ⟨step, state, going, acts⟩ := exchanges.acts
  obtain ⟨-, found, -⟩ := due_eq_some.1 going
  obtain ⟨-, -, held⟩ := due_eq_some.1 due
  rw [protocol_advance, counter_advance]
  rw [follows.role_eq] at acts
  have leads := (follows.leads step state going).acts found acts
  cases ends : outcome.ending with
  | some ending =>
      rw [Session.advance, ends] at held
      cases held
  | none =>
      rw [Session.advance, ends] at held
      obtain rfl := Option.some.inj held
      exact leads

theorem due_of_handshake (ended : session.handshake = none) : session.due = none := by
  apply due_eq_none
  intro step state _ going
  cases ended.symm.trans going

theorem due_withCipher {channel : Channel} {cipher : CipherState} :
    (session.withCipher channel cipher).due = session.due := by
  cases channel <;> rfl

theorem Follows.moves {passage : Option Passage} {after : Session}
    (follows : session.Follows role begun) (moves : session.Moves passage after) :
    after.Follows role begun := by
  have sameRole := moves.role_eq.trans follows.role_eq
  have sameProtocol := moves.protocol_eq
  cases moves with
  | stays => exact follows
  | cleared =>
      refine ⟨sameRole, ?_⟩
      intro step state due
      rw [due_of_handshake rfl] at due
      cases due
  | exchanged usable exchanges => exact follows.advance exchanges
  | transported usable late =>
      refine ⟨sameRole, ?_⟩
      intro step state due
      obtain ⟨early, -, -⟩ := due_eq_some.1 due
      rw [sameProtocol] at early
      exact absurd (Nat.lt_succ_of_lt late) (Nat.not_lt.2 early)
  | rekeyed =>
      refine ⟨sameRole, ?_⟩
      rw [due_withCipher, protocol_withCipher, counter_withCipher]
      exact follows.leads

theorem Follows.follow (follows : session.Follows role begun) (history : List Event) :
    (session.follow history).Follows role begun := by
  induction history generalizing session with
  | nil => exact follows
  | cons event rest ih => exact ih (follows.moves (moves_next session event))

/-- Whether the role's program for the message that is due can stop with that error. -/
def Stops (session : Session) (error : ProtocolError) : Prop :=
  ∃ step state generate payload input stopped,
    session.due = some (step, state) ∧
      Machine.run session.protocol.suite generate { state, frame := { payload, input } }
        (step.programFor session.role) = .error stopped ∧
      error = stopped.error

theorem Fails.kind_or_stops (fails : session.Fails call error) (phase : session.Phase) :
    error.kind ∈ [.tooLarge, .nonceExhausted, .decryption] ∨ session.Stops error := by
  cases fails with
  | @write generate payload step state stopped going turn failed =>
      rcases bind_eq_error.1 failed with ran | ⟨_, -, made⟩
      · refine .inr ⟨step, state, generate, payload, [], stopped, going, ?_, rfl⟩
        rw [Step.programFor_of_sender turn]
        exact ran
      · cases made
  | @read generate input step state stopped going turn failed =>
      rcases bind_eq_error.1 failed with ran | ⟨_, -, made⟩
      · refine .inr ⟨step, state, generate, [], input, stopped, going, ?_, rfl⟩
        rw [Step.programFor_of_receiver turn]
        exact ran
      · cases made
  | longMessage => exact .inl (by simp [ProtocolError.kind])
  | encrypt failed =>
      rw [(phase.wellFormed _).encrypt_eq_error failed]
      exact .inl (by decide)
  | decrypt failed =>
      rcases (phase.wellFormed _).decrypt_eq_error failed with exhausted | mismatch
      · rw [exhausted]
        exact .inl (by decide)
      · rw [mismatch]
        exact .inl (by decide)

/-- A call fails for its order, for the length of a message or in a transport cipher, or
because a program has stopped. -/
theorem Phase.kind_or_stops (phase : session.Phase)
    (compiled : session.protocol.IsCompiled)
    (failed : (session.call call).result = .error error) :
    error.kind ∈ [.sequencing, .tooLarge, .nonceExhausted, .decryption] ∨
    session.Stops error := by
  have answers := answers_call session call
  generalize session.call call = reply at answers failed
  cases answers with
  | refused refuses =>
      obtain rfl := Except.error.inj failed
      obtain ⟨-, kind | ⟨kind, -⟩⟩ := refuses.isRefusal phase compiled
      · exact .inl (by simp [kind])
      · exact .inl (by simp [kind])
  | failed usable fails =>
      obtain rfl := Except.error.inj failed
      exact (fails.kind_or_stops phase).imp_left (List.mem_cons_of_mem _)
  | exchanged | transported | rekeyed => cases failed

end Session

namespace Run

variable {protocol : Protocol} (run : Run protocol)

/-- A session follows the state at its start. -/
theorem follows :
    ∃ begun,
      HandshakeState.start protocol run.role run.prologue
        { run.keys with psk := if protocol.hasPsk then run.keys.psk else none } =
          .ok begun ∧
      run.session.Follows run.role begun := by
  obtain ⟨-, begun, started, same⟩ := Session.of_start run.started
  refine ⟨begun, started, ?_⟩
  apply Session.Follows.follow
  rw [same]
  refine ⟨rfl, ?_⟩
  intro step state due
  obtain ⟨-, -, held⟩ := Session.due_eq_some.1 due
  obtain rfl := Option.some.inj held
  exact .start

theorem role_session : run.session.role = run.role := by
  obtain ⟨_, -, follows⟩ := run.follows
  exact follows.role_eq

/-- A run that is about to carry out a message. -/
structure IsDue (run : Run protocol) (message : Message)
    (begun state : HandshakeState) : Prop where
  early : run.session.counter ≤ protocol.finalIndex
  there : protocol.pattern.messages[run.session.counter]? = some message
  started : HandshakeState.start protocol run.role run.prologue
    { run.keys with psk := if protocol.hasPsk then run.keys.psk else none } = .ok begun
  leads : protocol.Leads run.role begun run.session.counter state
  wellFormed : state.WellFormed protocol.suite

variable {run}

theorem isDue_of_due (compiled : protocol.IsCompiled) {step : Step}
    {state : HandshakeState} (due : run.session.due = some (step, state)) :
    ∃ message begun,
      step = Step.ofMessage protocol.suite protocol.attacker
        (.ofAnalysis protocol.analysis run.session.counter) message ∧
      run.IsDue message begun state := by
  obtain ⟨begun, started, follows⟩ := run.follows
  obtain ⟨early, found, held⟩ := Session.due_eq_some.1 due
  have leads := follows.leads step state due
  have wellFormed := (run.phase compiled).wellFormed_handshake state held
  rw [run.protocol_session] at early found leads wellFormed
  obtain ⟨message, there, made⟩ := compiled.exists_eq_ofMessage found
  exact ⟨message, begun, made, early, there, started, leads, wellFormed⟩

/-- The own key pairs belong to the function of the suite. -/
theorem IsDue.ofFunction {message : Message} {begun state : HandshakeState}
    (isDue : run.IsDue message begun state) (compiled : protocol.IsCompiled) :
    ∀ kind, ∀ pair ∈ state.own kind, pair.dh = protocol.suite.dh := by
  apply isDue.leads.keys fun _ _ _ changes before => changes.ofFunction before
  obtain ⟨ofFunction, -⟩ := Session.of_start run.started
  rw [HandshakeState.toKeys_of_start compiled.initialization_eq isDue.started]
  intro kind
  cases kind with
  | ephemeral => exact ofFunction .ephemeral
  | static => exact ofFunction .static

end Run

end Noise
