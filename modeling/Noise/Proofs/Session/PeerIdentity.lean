import Noise.Proofs.Session.Supply

/-!
# What a session remembers of the other party

A static key that a message brings is held by the handshake state.  The session takes it
over when the handshake ends, and only then: a session that is dropped before that falls
back to the key that it was given at the start.
-/

namespace Noise

/-! ## Static keys that a program reads -/

/-- Whether an instruction reads the other party's static key. -/
def Instruction.readsStatic (instruction : Instruction) : Bool :=
  instruction.learns? == some .static

theorem Keys.Changes.rs_eq {dh : DhFunction} {keys next : Keys}
    {instruction : Instruction} (changes : keys.Changes dh instruction next)
    (other : instruction.readsStatic = false) : next.rs = keys.rs := by
  cases changes with
  | stays | draws => rfl
  | @learns _ kind key learned =>
      cases kind with
      | ephemeral => rfl
      | static =>
          rw [Instruction.readsStatic, learned] at other
          cases other

namespace Machine

variable (suite : Suite) (generate : KeyGenerator)

/-- The bytes that an instruction reads from the incoming message, as they are or
decrypted.  They are told from the message and not from what is stored. -/
def read? (machine : Machine) : Instruction → Option Bytes
  | .parse _ length => do
      let (bytes, _) ← (machine.take length).toOption
      return bytes
  | .authDecrypt _ length _ => do
      let (bytes, _) ← (machine.field length).toOption
      let (plaintext, _) ← (machine.state.symmetric.decryptAndHash suite bytes).toOption
      return plaintext
  | _ => none

/-- The static key that an instruction reads. -/
def staticKey? (machine : Machine) (instruction : Instruction) : Option Bytes :=
  if instruction.readsStatic then machine.read? suite instruction else none

/-- The static keys that a program reads, up to an instruction that fails. -/
def staticKeys (machine : Machine) : Program → List Bytes
  | [] => []
  | instruction :: rest =>
      (machine.staticKey? suite instruction).toList ++
        match machine.exec suite generate instruction with
        | .ok next => staticKeys next rest
        | .error _ => []

variable {suite generate} {machine next : Machine} {instruction : Instruction}
  {program : Program}

/-- An instruction that reads a static key stores what it has read, and no other
instruction touches the key. -/
theorem rs_of_exec (ran : machine.exec suite generate instruction = .ok next) :
    next.state.rs = (machine.staticKey? suite instruction).or machine.state.rs ∧
      (machine.staticKey? suite instruction).isSome = instruction.readsStatic := by
  cases reads : instruction.readsStatic with
  | false =>
      have none : machine.staticKey? suite instruction = none := by
        rw [staticKey?, reads]; rfl
      rw [none]
      exact ⟨(changes_of_exec ran).rs_eq reads, rfl⟩
  | true =>
      have isRead : machine.staticKey? suite instruction =
          machine.read? suite instruction := if_pos reads
      rw [isRead]
      cases instruction with
      | parse target length =>
          rcases target with _ | (_ | _) | _ | _ | _ <;> cases reads
          obtain ⟨⟨bytes, moved⟩, took, made⟩ := bind_eq_ok.1 ran
          obtain rfl := Except.ok.inj made
          have key : machine.read? suite (.parse (.peer .static) length) =
              some bytes := by
            simp [read?, took, Except.toOption]
          rw [key]
          exact ⟨rfl, rfl⟩
      | authDecrypt target length expected =>
          rcases target with _ | (_ | _) | _ | _ | _ <;> cases reads
          rw [exec_authDecrypt] at ran
          obtain ⟨⟨bytes, moved⟩, took, ran⟩ := bind_eq_ok.1 ran
          obtain ⟨plaintext, symmetric, decrypted, rfl⟩ := of_openField ran
          have key :
              machine.read? suite (.authDecrypt (.peer .static) length expected) =
                some plaintext := by
            simp [read?, took, decrypted, Except.toOption]
          rw [key]
          exact ⟨rfl, rfl⟩
      | generateEphemeral | emit | mixHash | mixKey | mixKeyAndHash | authEncrypt
          | checkRemoteKey | split =>
          cases reads

theorem staticKeys_cons (ran : machine.exec suite generate instruction = .ok next) :
    machine.staticKeys suite generate (instruction :: program) =
      (machine.staticKey? suite instruction).toList ++
        next.staticKeys suite generate program := by
  simp only [staticKeys, ran]

/-- A program leaves the static key that it has read last, and it reads one with each
instruction for it. -/
theorem rs_of_run (ran : machine.run suite generate program = .ok next) :
    next.state.rs =
      (machine.staticKeys suite generate program).getLast?.or machine.state.rs ∧
      (machine.staticKeys suite generate program).length =
        program.countP Instruction.readsStatic := by
  induction program generalizing machine with
  | nil =>
      obtain rfl := Except.ok.inj ran
      exact ⟨rfl, rfl⟩
  | cons instruction rest ih =>
      rw [run_cons] at ran
      obtain ⟨middle, executed, ran⟩ := bind_eq_ok.1 ran
      obtain ⟨first, reads⟩ := rs_of_exec executed
      obtain ⟨later, count⟩ := ih ran
      rw [staticKeys_cons executed, List.getLast?_append, List.length_append,
        List.countP_cons, Option.or_assoc, later, first, count, ← reads]
      cases machine.staticKey? suite instruction with
      | none => exact ⟨rfl, Nat.zero_add _⟩
      | some key => exact ⟨rfl, Nat.add_comm _ _⟩

end Machine

/-! ## Static keys that a message brings -/

section Compiled

variable (suite : Suite) (attacker : AttackerModel) (hasPsk keyed : Bool) (role : Role)

theorem Token.countP_write (token : Token) :
    (token.write hasPsk role).countP Instruction.readsStatic = 0 := by
  rcases token with (_ | _) | _ | _ <;> cases hasPsk <;> rfl

theorem Token.countP_read (token : Token) :
    (token.read suite attacker hasPsk keyed role).countP Instruction.readsStatic =
      [token].count (.key .static) := by
  rcases token with (_ | _) | _ | _ <;> cases hasPsk <;> cases attacker <;> rfl

theorem countP_readTokens (tokens : List Token) :
    (readTokenList suite attacker hasPsk role keyed tokens).countP
      Instruction.readsStatic = tokens.count (.key .static) := by
  induction tokens generalizing keyed with
  | nil => rfl
  | cons token rest ih =>
      rw [readTokenList, List.countP_append, token.countP_read, ih, ← List.count_append,
        List.singleton_append]

theorem countP_ending (isFinal : Bool) :
    List.countP Instruction.readsStatic (if isFinal then [.split] else []) = 0 := by
  cases isFinal <;> rfl

theorem Step.countP_write (place : Place) (message : Message) :
    (ofMessage suite attacker place message).write.countP Instruction.readsStatic =
      0 := by
  have tokens :
      (message.tokens.flatMap
        (Token.write place.hasPsk message.direction.sender)).countP
          Instruction.readsStatic = 0 := by
    rw [List.countP_eq_zero]
    intro instruction present
    obtain ⟨token, -, written⟩ := List.mem_flatMap.1 present
    exact List.countP_eq_zero.1 (token.countP_write _ _) instruction written
  simp only [ofMessage, List.countP_append, List.countP_cons, tokens, countP_ending]
  rfl

theorem Step.countP_read (place : Place) (message : Message) :
    (ofMessage suite attacker place message).read.countP Instruction.readsStatic =
      message.tokens.count (.key .static) := by
  simp only [ofMessage, List.countP_append, List.countP_cons, countP_readTokens,
    countP_ending]
  rfl

end Compiled

theorem count_spoken_by (sender speaker : Role) (tokens : List Token) (token : Token) :
    (tokens.map (sender, ·)).count (speaker, token) =
      if sender = speaker then tokens.count token else 0 := by
  split
  next same =>
    subst same
    exact List.count_map_of_injective tokens _ (Prod.mk_right_injective sender) token
  next different =>
    rw [List.count_eq_zero]
    intro present
    obtain ⟨_, -, same⟩ := List.mem_map.1 present
    exact different (Prod.mk.inj same).1

namespace Session

variable {session : Session} {call : Call} {event : Event} {passage : Passage}
  {outcome : Outcome} {error : ProtocolError}

/-- The static keys that an event brings: those in a message that is received.  A call
that does not return brings none. -/
def staticKeysOf (session : Session) : Event → List Bytes
  | .call (.recv generate input) =>
      match (session.recv generate input).result, session.due with
      | .ok _, some (step, state) =>
          Machine.staticKeys session.protocol.suite generate
            { state, frame := { input } } step.read
      | _, _ => []
  | .call (.send ..) | .call (.rekey _) | .clear => []

/-- The static keys that a history brings. -/
def received (session : Session) : List Event → List Bytes
  | [] => []
  | event :: rest => session.staticKeysOf event ++ received (session.next event) rest

theorem staticKeysOf_of_error (failed : (session.call call).result = .error error) :
    session.staticKeysOf (.call call) = [] := by
  cases call with
  | send | rekey => rfl
  | recv generate input =>
      replace failed : (session.recv generate input).result = .error error := failed
      simp only [staticKeysOf, failed]

theorem staticKeysOf_of_due (ended : session.due = none) :
    session.staticKeysOf event = [] := by
  rcases event with (_ | ⟨generate, input⟩ | _) | _
  case call.recv =>
    simp only [staticKeysOf, ended]
    cases (session.recv generate input).result <;> rfl
  all_goals rfl

/-- A message changes the static key to the last one that it brings, and it brings as
many as the other party's tokens say. -/
theorem Exchanges.learns (exchanges : session.Exchanges call passage outcome)
    (returned : (session.call call).result = .ok outcome.message)
    (compiled : session.protocol.IsCompiled) :
    ∃ state message, session.handshake = some state ∧
      session.counter ≤ session.protocol.finalIndex ∧
      session.protocol.pattern.messages[session.counter]? = some message ∧
      outcome.state.rs = (session.staticKeysOf (.call call)).getLast?.or state.rs ∧
      (session.staticKeysOf (.call call)).length =
        (message.tokens.map (message.direction.sender, ·)).count
          (session.role.other, .key .static) := by
  cases exchanges with
  | write going turn written =>
      obtain ⟨early, found, held⟩ := due_eq_some.1 going
      obtain ⟨message, there, rfl⟩ := compiled.eq_ofMessage early found
      obtain ⟨machine, ran, left⟩ := bind_eq_ok.1 written
      obtain rfl := Except.ok.inj left
      obtain ⟨learned, count⟩ := Machine.rs_of_run ran
      rw [Step.countP_write, List.length_eq_zero_iff] at count
      rw [count] at learned
      refine ⟨_, message, held, early, there, learned, ?_⟩
      have own : message.direction.sender ≠ session.role.other := by
        intro other
        exact session.role.other_ne (other.symm.trans turn)
      rw [count_spoken_by, if_neg own]
      rfl
  | @read generate input step state outcome going turn read =>
      obtain ⟨early, found, held⟩ := due_eq_some.1 going
      obtain ⟨message, there, rfl⟩ := compiled.eq_ofMessage early found
      obtain ⟨machine, ran, left⟩ := bind_eq_ok.1 read
      obtain rfl := Except.ok.inj left
      replace returned :
          (session.recv generate input).result = .ok machine.frame.plaintext := returned
      obtain ⟨learned, count⟩ := Machine.rs_of_run ran
      rw [Step.countP_read] at count
      have other : message.direction.sender = session.role.other := by
        rw [← turn]
        exact (Role.other_other _).symm
      refine ⟨_, message, held, early, there, ?_, ?_⟩
      · simp only [staticKeysOf, returned, going]
        exact learned
      · simp only [staticKeysOf, returned, going]
        rw [count_spoken_by, if_pos other]
        exact count

/-! ## What a session remembers -/

/-- A session that was given a static key and has received others since: the handshake
holds the last one, and the session holds it once the handshake has ended. -/
structure Remembers (given : Option Bytes) (keys : List Bytes) (session : Session) :
    Prop where
  rs_eq : ∀ state ∈ session.handshake, state.rs = keys.getLast?.or given
  peerStatic_eq : session.peerStatic =
    if session.isComplete then keys.getLast?.or given else given
  length_eq : keys.length =
    (session.protocol.pattern.spoken (min session.counter
      (session.protocol.finalIndex + 1))).count (session.role.other, .key .static)

variable {given : Option Bytes} {keys : List Bytes}

theorem Remembers.clear (remembers : session.Remembers given keys) :
    session.clear.Remembers given keys where
  rs_eq := fun _ held => nomatch held
  peerStatic_eq := remembers.peerStatic_eq
  length_eq := remembers.length_eq

theorem Remembers.afterError (remembers : session.Remembers given keys)
    (error : ProtocolError) :
    (session.afterError error).Remembers given keys := by
  rw [Session.afterError]
  split
  · exact remembers.clear
  · exact remembers

/-- A transport cipher has nothing to do with what a session remembers. -/
theorem Remembers.moved (remembers : session.Remembers given keys) (channel : Channel)
    (cipher : CipherState) {count : Nat}
    (late : count = 0 ∨ session.protocol.finalIndex < session.counter) :
    (session.moved channel cipher count).Remembers given keys := by
  have sameCount : min (session.counter + count) (session.protocol.finalIndex + 1) =
      min session.counter (session.protocol.finalIndex + 1) := by omega
  cases channel with
  | a =>
      exact ⟨remembers.rs_eq, remembers.peerStatic_eq, sameCount ▸ remembers.length_eq⟩
  | b =>
      exact ⟨remembers.rs_eq, remembers.peerStatic_eq, sameCount ▸ remembers.length_eq⟩

/-- A message that is carried out brings its static keys, and the final message makes
the session take them over. -/
theorem Remembers.advance (remembers : session.Remembers given keys)
    (inside : session.InHandshake) (compiled : session.protocol.IsCompiled)
    (exchanges : session.Exchanges call passage outcome)
    (returned : (session.call call).result = .ok outcome.message) :
    (session.advance outcome).Remembers given
      (keys ++ session.staticKeysOf (.call call)) := by
  obtain ⟨state, message, held, early, there, learned, count⟩ :=
    exchanges.learns returned compiled
  have last : outcome.state.rs =
      (keys ++ session.staticKeysOf (.call call)).getLast?.or given := by
    rw [learned, remembers.rs_eq state held, List.getLast?_append, Option.or_assoc]
  -- Either the handshake goes on and holds the key, or it ends and the session takes
  -- the key over.
  constructor
  · intro next goesOn
    cases ends : outcome.ending with
    | none =>
        rw [Session.advance, ends] at goesOn
        obtain rfl := Option.some.inj goesOn
        exact last
    | some ending =>
        rw [Session.advance, ends] at goesOn
        cases goesOn
  · cases ends : outcome.ending with
    | none =>
        have unfinished := inside.not_isComplete
        have before := remembers.peerStatic_eq
        rw [if_neg unfinished] at before
        rw [Session.advance, ends]
        exact before.trans (if_neg unfinished).symm
    | some ending =>
        rw [Session.advance, ends]
        exact last
  · have counted : min (session.counter + 1) (session.protocol.finalIndex + 1) =
        session.counter + 1 := by omega
    have before := remembers.length_eq
    rw [Nat.min_eq_left (Nat.le_succ_of_le early)] at before
    rw [protocol_advance, role_advance, counter_advance, counted,
      Pattern.spoken_succ there, List.length_append, List.count_append, before, count]

/-- Every event is remembered as far as it goes. -/
theorem Remembers.next (remembers : session.Remembers given keys)
    (phase : session.Phase) (compiled : session.protocol.IsCompiled) (event : Event) :
    (session.next event).Remembers given (keys ++ session.staticKeysOf event) := by
  cases event with
  | clear =>
      rw [staticKeysOf, List.append_nil]
      exact remembers.clear
  | call call =>
      have answers := answers_call session call
      rw [Session.next]
      generalize made : session.call call = reply at answers
      -- The reply is named, since what an event brings depends on whether the call
      -- returns.
      cases answers with
      | refused =>
          rw [staticKeysOf_of_error (congrArg Reply.result made), List.append_nil]
          exact remembers
      | failed =>
          rw [staticKeysOf_of_error (congrArg Reply.result made), List.append_nil]
          exact remembers.afterError _
      | exchanged usable exchanges =>
          have inside := phase.inHandshake usable (exchanges.carries compiled).1
          exact remembers.advance inside compiled exchanges (congrArg Reply.result made)
      | @transported channel _ _ cipher usable late =>
          have ended : session.due = none := by rw [due, if_neg (Nat.not_le.2 late)]
          rw [staticKeysOf_of_due ended, List.append_nil]
          exact remembers.moved channel cipher (.inr late)
      | @rekeyed action channel cipher isRekey =>
          rw [isRekey, staticKeysOf, List.append_nil, ← moved_zero]
          exact remembers.moved channel cipher (.inl rfl)

theorem Remembers.follow (remembers : session.Remembers given keys)
    (phase : session.Phase) (compiled : session.protocol.IsCompiled)
    (history : List Event) :
    (session.follow history).Remembers given (keys ++ session.received history) := by
  induction history generalizing session keys with
  | nil =>
      rw [received, List.append_nil]
      exact remembers
  | cons event rest ih =>
      have moves := moves_next session event
      rw [received, ← List.append_assoc]
      apply ih (remembers.next phase compiled event) (phase.moves compiled moves)
      rw [moves.protocol_eq]
      exact compiled

/-- A session that was dropped before its handshake ended has no more than the key that
it was given, and every other session has the last key that it received. -/
theorem Remembers.remoteStatic_eq (remembers : session.Remembers given keys)
    (phase : session.Phase) :
    session.remoteStatic =
      if session.failed && !session.isComplete then given
      else keys.getLast?.or given := by
  cases phase with
  | handshake inside =>
      obtain ⟨state, going, -⟩ := inside.going
      rw [remoteStatic, going, Option.bind_some, remembers.rs_eq state going,
        remembers.peerStatic_eq, if_neg inside.not_isComplete, inside.usable,
        Option.or_assoc, Option.or_self]
      rfl
  | transport inside =>
      rw [remoteStatic, inside.ended, remembers.peerStatic_eq, if_pos inside.isComplete,
        inside.usable]
      rfl
  | abandoned gone =>
      rw [remoteStatic, gone.ended, remembers.peerStatic_eq, gone.failed]
      cases session.isComplete <;> rfl

/-- Under a passive attacker nothing but a call to clear it makes a session fail. -/
theorem usable_next (usable : session.failed = false)
    (passive : session.protocol.attacker = .passive) (kept : event ≠ .clear) :
    (session.next event).failed = false := by
  cases event with
  | clear => exact absurd rfl kept
  | call call =>
      have answers := answers_call session call
      rw [Session.next]
      generalize session.call call = reply at answers
      cases answers with
      | refused => exact usable
      | failed =>
          rw [fail, Session.afterError, passive, if_neg (by simp)]
          exact usable
      | exchanged =>
          simp only [Session.advance]
          split <;> exact usable
      | @transported channel => cases channel <;> exact usable
      | @rekeyed _ channel => cases channel <;> exact usable

theorem usable_follow (usable : session.failed = false)
    (passive : session.protocol.attacker = .passive) {history : List Event}
    (kept : .clear ∉ history) : (session.follow history).failed = false := by
  induction history generalizing session with
  | nil => exact usable
  | cons event rest ih =>
      rw [List.mem_cons, not_or] at kept
      obtain ⟨first, later⟩ := kept
      apply ih (usable_next usable passive (Ne.symm first)) _ later
      rw [(moves_next session event).protocol_eq]
      exact passive

end Session

namespace Run

variable {protocol : Protocol} (run : Run protocol)

/-- The static keys that the session has received. -/
def received : List Bytes := run.begun.received run.history

theorem remembers (compiled : protocol.IsCompiled) :
    run.session.Remembers run.keys.rs run.received := by
  obtain ⟨-, handshake, started, begun⟩ := Session.of_start run.started
  have given : handshake.rs = run.keys.rs := by
    rw [HandshakeState.toKeys_of_start compiled.initialization_eq started]
  have fresh : run.begun.Remembers run.keys.rs [] := by
    rw [begun]
    constructor
    · rintro state ⟨⟩
      exact given
    · exact given
    · simp [Pattern.spoken]
  apply fresh.follow (.handshake (Session.inHandshake_of_start run.started))
  rw [run.protocol_begun]
  exact compiled

/-- What a session knows of the other party's static key after any history.  It has
received a key for each token that the other party has sent for one, and it answers with
the last of them, or with the key that it was given if there is none.  A session that
was dropped before its handshake ended is the exception: it answers with the key that it
was given.  Therefore the last key that was received is kept if and only if the session
is still usable, or its handshake has ended, or the key was known from the start; and
under a passive attacker a session that nobody clears stays usable. -/
theorem learned_identity_kept_iff {draft : Draft} {suite : Suite}
    {attacker : AttackerModel} {protocol : Protocol}
    (compiled : Protocol.compile draft suite attacker = .ok protocol)
    (run : Run protocol) :
    run.received.length =
      (protocol.pattern.spoken (min run.session.counter
        (protocol.finalIndex + 1))).count (run.role.other, .key .static) ∧
    run.session.remoteStatic =
      (if run.session.failed && !run.session.isComplete then run.keys.rs
       else run.received.getLast?.or run.keys.rs) ∧
    (∀ key, run.received.getLast? = some key →
      (run.session.remoteStatic = some key ↔
        run.session.failed = false ∨ run.session.isComplete ∨ run.keys.rs = some key)) ∧
    (attacker = .passive → .clear ∉ run.history → run.session.failed = false) := by
  obtain ⟨wellFormed, -, rfl⟩ := Protocol.isCompiled_of_compile compiled
  have remembers := run.remembers wellFormed
  have known := remembers.remoteStatic_eq (run.phase wellFormed)
  refine ⟨?_, known, ?_, ?_⟩
  · rw [remembers.length_eq, run.protocol_session, run.role_session]
  · intro key last
    rw [known, last]
    cases run.session.failed <;> cases run.session.isComplete <;> simp
  · intro passive kept
    have begun := Session.inHandshake_of_start run.started
    rw [← run.protocol_begun] at passive
    exact Session.usable_follow begun.usable passive kept

open Catalog in
/-- A responder that was given one key, and received another in the only message, keeps
the one that it received when it is cleared. -/
theorem learned_identity_kept_of_ended :
    ∃ protocol, ∃ run : Run protocol, ∃ given key,
      Protocol.compile (entry "S" [] [Catalog.send [s]]).toDraft {} .active =
        .ok protocol ∧
      run.keys.rs = some given ∧ key ≠ given ∧ run.received.getLast? = some key ∧
      run.session.failed = true ∧
      run.session.isComplete ∧ run.session.remoteStatic = some key := by
  let history : List Event :=
    [.call (.recv (fun _ => default) (List.replicate 32 7)), .clear]
  let given : Bytes := List.replicate 32 9
  obtain ⟨protocol, begun, compiled, started, last, failed, complete⟩ :
      ∃ protocol begun,
        Protocol.compile (entry "S" [] [Catalog.send [s]]).toDraft {} .active =
          .ok protocol ∧
        Session.start protocol .responder [] { rs := some given } = .ok begun ∧
        (begun.received history).getLast? = some (List.replicate 32 7) ∧
        (begun.follow history).failed = true ∧ (begun.follow history).isComplete :=
    ⟨_, _, rfl, rfl, rfl, rfl, rfl⟩
  let run : Run protocol :=
    { role := .responder, prologue := [], keys := { rs := some given }, begun, started,
      history }
  obtain ⟨-, -, kept, -⟩ := learned_identity_kept_iff compiled run
  exact ⟨protocol, run, given, _, compiled, rfl, by decide, last, failed, complete,
    (kept _ last).2 (.inr (.inl complete))⟩

open Catalog in
/-- A responder that has received the initiator's static key forgets it when it is
cleared before it answers. -/
theorem learned_identity_lost_on_clear :
    ∃ protocol, ∃ run : Run protocol, ∃ key,
      Protocol.compile (entry "IN" []
        [Catalog.send [e, s], Catalog.recv [e, ee, se]]).toDraft {} .passive =
        .ok protocol ∧
      run.received.getLast? = some key ∧ run.session.remoteStatic = none := by
  let history : List Event :=
    [.call (.recv (fun _ => default) (List.replicate 64 7)), .clear]
  obtain ⟨protocol, begun, compiled, started, last, lost⟩ :
      ∃ protocol begun,
        Protocol.compile (entry "IN" []
          [Catalog.send [e, s], Catalog.recv [e, ee, se]]).toDraft {} .passive =
          .ok protocol ∧
        Session.start protocol .responder [] {} = .ok begun ∧
        (begun.received history).getLast? = some (List.replicate 32 7) ∧
        (begun.follow history).remoteStatic = none :=
    ⟨_, _, rfl, rfl, rfl, rfl⟩
  let run : Run protocol :=
    { role := .responder, prologue := [], keys := {}, begun, started, history }
  exact ⟨protocol, run, _, compiled, last, lost⟩

end Run

end Noise
