import Noise.Proofs.Session.Nonces
import Noise.Proofs.Session.Turns

/-!
# Who may speak

During the handshake the sender of the step that is due sends and the other party
receives, and no key is replaced. After it both parties do both, except in a one-way
pattern: there the sender of the first step only sends and the other party only
receives.  Every other call is out of turn, and leaves the session as it was.
-/

namespace Noise

/-- What a party does with the messages of a sender: it sends its own and receives
those of the other. -/
def Role.part (role sender : Role) : Action := if sender = role then .send else .receive

/-- The two parties never have the same part. -/
theorem Role.part_other (role sender : Role) :
    role.other.part sender ≠ role.part sender := by
  cases role <;> cases sender <;> decide

namespace Session

variable {session : Session} {call : Call} {error : ProtocolError}

/-! ## Calls out of turn -/

/-- A call that is refused because it may not be made now. -/
def OutOfTurn (session : Session) (call : Call) : Prop :=
  ∃ error, (session.call call).result = .error error ∧ error.kind = .sequencing

/-- The bytes of a call fit into a message. -/
def Call.Fits : Call → Prop
  | .send _ bytes | .recv _ bytes => bytes.length ≤ maxMessageLength
  | .rekey _ => True

theorem outOfTurn_of_refuse (made : session.call call = session.refuse error) :
    session.OutOfTurn call ↔ error.kind = .sequencing := by
  simp [OutOfTurn, made, refuse]

/-- A step of the handshake that fails does so for another reason. -/
theorem not_outOfTurn_of_commit {maximum : Option Nat} {result : Except Stopped Outcome}
    (made : session.call call = session.commit maximum result)
    (ofStep : ∀ stopped, result = .error stopped → stopped.error.isOfStep) :
    ¬ session.OutOfTurn call := by
  rintro ⟨error, failed, kind⟩
  rw [made] at failed
  cases result with
  | error stopped =>
      obtain rfl := Except.error.inj failed
      exact (ProtocolError.kind_of_isOfStep (ofStep stopped rfl)).2.1 kind
  | ok outcome =>
      simp only [commit] at failed
      split at failed
      · obtain rfl := Except.error.inj failed
        cases kind
      · cases failed

/-- So does a transport cipher that fails. -/
theorem not_outOfTurn_of_commitTransport {channel : Channel}
    {result : Except (Halt CipherState) (Bytes × CipherState)}
    (made : session.call call = session.commitTransport channel result)
    (ofStep : ∀ halt, result = .error halt → halt.error.isOfStep) :
    ¬ session.OutOfTurn call := by
  rintro ⟨error, failed, kind⟩
  rw [made] at failed
  cases result with
  | error halt =>
      obtain rfl := Except.error.inj failed
      exact (ProtocolError.kind_of_isOfStep (ofStep halt rfl)).2.1 kind
  | ok pair => cases failed

/-- A call out of turn changes nothing, whatever the attacker can do. -/
theorem OutOfTurn.session_eq (outOfTurn : session.OutOfTurn call)
    (phase : session.Phase) :
    (session.call call).session = session := by
  obtain ⟨error, failed, kind⟩ := outOfTurn
  have answers := answers_call session call
  generalize session.call call = reply at answers failed ⊢
  cases answers with
  | refused => rfl
  | failed usable fails =>
      obtain rfl := Except.error.inj failed
      exact absurd (.inl kind) (fails.not_isRefusal phase usable).2
  | exchanged | transported | rekeyed => cases failed

/-- No key is replaced where there is no channel. -/
theorem call_rekey_of_closed {action : Action} (usable : session.failed = false)
    (closed : session.channel action = .error error) :
    session.call (.rekey action) = session.refuse error := by
  simp only [Session.call, rekey, usable, closed, Bool.false_eq_true, ↓reduceIte]
  rfl

/-! ## The handshake -/

theorem InHandshake.outOfTurn_rekey (inside : session.InHandshake) (action : Action) :
    session.OutOfTurn (.rekey action) := by
  have closed : session.channel action = .error .handshakeIncomplete := by
    simp [Session.channel, inside.not_isComplete]
  exact (outOfTurn_of_refuse (call_rekey_of_closed inside.usable closed)).2 rfl

/-- During the handshake a call is in turn when it is the party's part in the
step that is due. -/
theorem InHandshake.outOfTurn_iff {step : Step} {state : HandshakeState}
    (inside : session.InHandshake) (going : session.due = some (step, state))
    (fits : call.Fits) :
    session.OutOfTurn call ↔ call.isRekey = true ∨
      call.action ≠ session.role.part step.sender := by
  obtain ⟨early, found, held⟩ := due_eq_some.1 going
  have wellFormed := (Phase.handshake inside).wellFormed_handshake state held
  cases call with
  | rekey action => simp [inside.outOfTurn_rekey action, Call.isRekey]
  | send generate plaintext =>
      by_cases own : step.sender = session.role
      · have inTurn : ¬ session.OutOfTurn (.send generate plaintext) :=
          not_outOfTurn_of_commit (send_handshake inside.usable early found held own)
            fun _ failed => wellFormed.isOfStep_of_write failed
        simp [inTurn, Call.isRekey, Call.action, Role.part, own]
      · have refused : session.call (.send generate plaintext) =
            session.refuse (.notYourTurn session.role .send session.counter) := by
          simp only [Session.call, send, inside.usable, early, found, held, own,
            Bool.false_eq_true, ↓reduceIte]
        simp [outOfTurn_of_refuse refused, ProtocolError.kind, Call.action,
          Role.part, own]
  | recv generate message =>
      by_cases own : step.sender = session.role
      · have other : step.receiver ≠ session.role := own ▸ step.sender.other_ne
        have refused : session.call (.recv generate message) =
            session.refuse (.notYourTurn session.role .receive session.counter) := by
          simp only [Session.call, recv, inside.usable, Nat.not_lt.2 fits, early, found,
            held, other, Bool.false_eq_true, ↓reduceIte]
        simp [outOfTurn_of_refuse refused, ProtocolError.kind, Call.action,
          Role.part, own]
      · have turn : step.receiver = session.role := by
          rcases session.role.eq_or_eq_other step.sender with same | other
          · exact absurd same.symm own
          · exact other.symm
        have inTurn : ¬ session.OutOfTurn (.recv generate message) :=
          not_outOfTurn_of_commit (recv_handshake inside.usable fits early found
            held turn) fun _ failed => wellFormed.isOfStep_of_read failed
        simp [inTurn, Call.isRekey, Call.action, Role.part, own]

/-! ## The transport phase -/

/-- After the handshake of a one-way pattern there is a channel for the
party's part only. -/
theorem channel_eq_error {action : Action} {sender : Role}
    (complete : session.isComplete) (oneWay : session.protocol.isOneWay = true)
    (sends : session.protocol.oneWaySender = some sender) :
    (∃ error, session.channel action = .error error) ↔
      action ≠ session.role.part sender := by
  by_cases own : sender = session.role
  · cases action <;> simp [Session.channel, complete, oneWay, sends, Role.part, own]
  · cases action <;> simp [Session.channel, complete, oneWay, sends, Role.part, own]

/-- After the handshake a call for which there is a channel is in turn. -/
theorem InTransport.not_outOfTurn {channel : Channel} (inside : session.InTransport)
    (chosen : session.channel call.action = .ok channel) :
    ¬ session.OutOfTurn call := by
  have notEarly : ¬ session.counter ≤ session.protocol.finalIndex :=
    Nat.not_le.2 inside.late
  have wellFormed := inside.wellFormed channel
  cases call with
  | rekey action =>
      rintro ⟨error, failed, -⟩
      cases (inside.rekey_returns chosen).symm.trans failed
  | send generate plaintext =>
      change session.channel .send = .ok channel at chosen
      by_cases long : maxMessageLength < plaintext.length + tagLength
      · have refused : session.call (.send generate plaintext) =
            session.refuse (.tooLarge (plaintext.length + tagLength)) := by
          simp only [Session.call, send, inside.usable, notEarly, chosen, long,
            Bool.false_eq_true, ↓reduceIte]
        simp [outOfTurn_of_refuse refused, ProtocolError.kind]
      · refine not_outOfTurn_of_commitTransport
          (send_transport inside.usable inside.late chosen (Nat.not_lt.1 long)) ?_
        intro halt failed
        rw [wellFormed.encrypt_eq_error failed]
        rfl
  | recv generate message =>
      change session.channel .receive = .ok channel at chosen
      by_cases long : maxMessageLength < message.length
      · have refused : session.call (.recv generate message) =
            session.refuse (.tooLarge message.length) := by
          simp only [Session.call, recv, inside.usable, long, Bool.false_eq_true,
            ↓reduceIte]
        simp [outOfTurn_of_refuse refused, ProtocolError.kind]
      · refine not_outOfTurn_of_commitTransport
          (recv_transport inside.usable (Nat.not_lt.1 long) inside.late chosen) ?_
        intro halt failed
        rcases wellFormed.decrypt_eq_error failed with exhausted | mismatch
        · rw [exhausted]
          rfl
        · rw [mismatch]
          rfl

/-- After the handshake a call for which there is no channel is out of turn. -/
theorem InTransport.outOfTurn (inside : session.InTransport) (fits : call.Fits)
    (closed : session.channel call.action = .error error) : session.OutOfTurn call := by
  have notEarly : ¬ session.counter ≤ session.protocol.finalIndex :=
    Nat.not_le.2 inside.late
  have refused : session.call call = session.refuse error := by
    cases call with
    | rekey action => exact call_rekey_of_closed inside.usable closed
    | send generate plaintext =>
        change session.channel .send = .error error at closed
        simp only [Session.call, send, inside.usable, notEarly, closed,
          Bool.false_eq_true, ↓reduceIte]
    | recv generate message =>
        change session.channel .receive = .error error at closed
        simp only [Session.call, recv, inside.usable, Nat.not_lt.2 fits, notEarly,
          closed, Bool.false_eq_true, ↓reduceIte]
  exact (outOfTurn_of_refuse refused).2 (kind_of_channel closed)

/-- In a one-way pattern a call of the transport phase is in turn when it is
the party's part. -/
theorem InTransport.outOfTurn_iff {sender : Role} (inside : session.InTransport)
    (fits : call.Fits) (oneWay : session.protocol.isOneWay = true)
    (sends : session.protocol.oneWaySender = some sender) :
    session.OutOfTurn call ↔ call.action ≠ session.role.part sender := by
  rw [← channel_eq_error inside.isComplete oneWay sends]
  constructor
  · intro outOfTurn
    cases chosen : session.channel call.action with
    | error error => exact ⟨error, rfl⟩
    | ok channel => exact absurd outOfTurn (inside.not_outOfTurn chosen)
  · rintro ⟨error, closed⟩
    exact inside.outOfTurn fits closed

theorem Phase.inTransport_of_key {key : Bytes} (phase : session.Phase)
    (held : session.cipherA.key = some key) :
    session.InTransport := by
  cases phase with
  | transport inside => exact inside
  | handshake inside =>
      have empty : session.cipherA = {} := inside.empty .a
      rw [empty] at held
      cases held
  | abandoned gone =>
      have empty : session.cipherA = {} := gone.empty .a
      rw [empty] at held
      cases held

/-! ## Whole histories -/

theorem InTransport.channel_of_call {bytes : Bytes} (inside : session.InTransport)
    (returned : (session.call call).result = .ok bytes) :
    ∃ channel, session.channel call.action = .ok channel := by
  have transfers := (inside.transfers returned).1
  generalize (session.call call).session = after at transfers
  cases transfers with
  | message _ chosen => exact ⟨_, chosen⟩
  | rekey _ chosen => exact ⟨_, chosen⟩

theorem transfer?_eq_some {event : Event} {transfer : Transfer}
    (found : session.transfer? event = some transfer) :
    transfer.session = session ∧ session.isComplete ∧
      (session.call transfer.call).result = .ok transfer.bytes := by
  cases complete : session.isComplete with
  | false => cases (transfer?_eq_none complete event).symm.trans found
  | true =>
      cases event with
      | clear => cases found
      | call call =>
          simp only [transfer?, complete, ↓reduceIte] at found
          cases result : (session.call call).result with
          | error error =>
              rw [result] at found
              cases found
          | ok bytes =>
              rw [result] at found
              obtain rfl := Option.some.inj found
              exact ⟨rfl, rfl, result⟩

/-- Every transport call that has returned was made by the party itself, and there
was a channel for it. -/
theorem Phase.channel_of_transfers (phase : session.Phase)
    (compiled : session.protocol.IsCompiled) (history : List Event) :
    ∀ transfer ∈ session.transfers history,
      transfer.session.protocol = session.protocol ∧
      transfer.session.role = session.role ∧
        transfer.session.isComplete ∧
          ∃ channel, transfer.session.channel transfer.call.action = .ok channel := by
  induction history generalizing session with
  | nil =>
      intro transfer mem
      cases mem
  | cons event rest ih =>
      have moves := moves_next session event
      intro transfer mem
      rcases List.mem_append.1 mem with now | later
      · obtain ⟨rfl, complete, returned⟩ := transfer?_eq_some (Option.mem_toList.1 now)
        cases failed : transfer.session.failed with
        | true => cases (call_of_failed failed transfer.call).symm.trans returned
        | false =>
            exact ⟨rfl, rfl, complete,
              (phase.inTransport failed complete).channel_of_call returned⟩
      · obtain ⟨sameProtocol, sameRole, complete, chosen⟩ :=
          ih (phase.moves compiled moves) (moves.protocol_eq ▸ compiled) transfer later
        exact ⟨sameProtocol.trans moves.protocol_eq, sameRole.trans moves.role_eq,
          complete, chosen⟩

end Session

namespace Run

variable {protocol : Protocol} {run : Run protocol} {call : Session.Call} {step : Step}

theorem inHandshake_of_early (compiled : protocol.IsCompiled)
    (usable : run.session.failed = false)
    (early : run.session.counter ≤ protocol.finalIndex) : run.session.InHandshake := by
  apply (run.phase compiled).inHandshake usable
  rw [run.protocol_session]
  exact early

theorem inTransport_of_late (compiled : protocol.IsCompiled)
    (usable : run.session.failed = false)
    (late : protocol.finalIndex < run.session.counter) : run.session.InTransport := by
  apply (run.phase compiled).inTransport_of_late usable
  rw [run.protocol_session]
  exact late

theorem outOfTurn_of_handshake (compiled : protocol.IsCompiled)
    (usable : run.session.failed = false)
    (early : run.session.counter ≤ protocol.finalIndex)
    (found : protocol.steps[run.session.counter]? = some step) (fits : call.Fits) :
    run.session.OutOfTurn call ↔ call.isRekey = true ∨
      call.action ≠ run.role.part step.sender := by
  have inside := inHandshake_of_early compiled usable early
  obtain ⟨state, held, -⟩ := inside.going
  have going : run.session.due = some (step, state) := by
    rw [Session.due_eq_some, run.protocol_session]
    exact ⟨early, found, held⟩
  rw [inside.outOfTurn_iff going fits, run.role_session]

theorem outOfTurn_of_oneWay (compiled : protocol.IsCompiled)
    (usable : run.session.failed = false)
    (late : protocol.finalIndex < run.session.counter)
    (oneWay : protocol.isOneWay = true) (found : protocol.steps[0]? = some step)
    (fits : call.Fits) :
    run.session.OutOfTurn call ↔ call.action ≠ run.role.part step.sender := by
  have inside := inTransport_of_late compiled usable late
  have sends := Protocol.oneWaySender_eq oneWay found
  rw [← run.protocol_session] at oneWay sends
  rw [inside.outOfTurn_iff fits oneWay sends, run.role_session]

/-- In a one-way pattern a party does its part only. -/
theorem action_of_transfers (run : Run protocol) (compiled : protocol.IsCompiled)
    (oneWay : protocol.isOneWay = true) (found : protocol.steps[0]? = some step) :
    ∀ transfer ∈ run.transfers, transfer.call.action = run.role.part step.sender := by
  intro transfer mem
  have begun := run.protocol_begun
  have fresh := Session.inHandshake_of_start run.started
  obtain ⟨sameProtocol, sameRole, complete, channel, chosen⟩ :=
    (Session.Phase.handshake fresh).channel_of_transfers
      (begun.symm ▸ compiled) run.history transfer mem
  have role : run.begun.role = run.role := by
    obtain ⟨-, handshake, -, made⟩ := Session.of_start run.started
    rw [made]
  have sends := Protocol.oneWaySender_eq oneWay found
  rw [← begun, ← sameProtocol] at oneWay sends
  by_contra other
  rw [← role, ← sameRole] at other
  obtain ⟨error, closed⟩ := (Session.channel_eq_error complete oneWay sends).2 other
  cases chosen.symm.trans closed

/-- Turns and directions are exact.  In a session that has not failed, and with bytes
that fit into a message: during the handshake only the sender of the step that is due
may send, only the other party may receive, and nobody may replace a key, so that of two
parties at the same message one may send and the other may receive.  After the handshake
nothing is out of turn in an interactive pattern; in a one-way pattern only the sender
of the first step may send and replace its key for sending, and only the other party may
receive and replace its key for receiving.  A call out of turn leaves the session as it
was.  Therefore in a one-way pattern the receiver has never sent a transport message,
and the sender has never received one. -/
theorem turns_are_exact {draft : Draft} {suite : Suite} {attacker : AttackerModel}
    {protocol : Protocol}
    (compiled : Protocol.compile draft suite attacker = .ok protocol)
    (run : Run protocol) :
    (run.session.failed = false → run.session.counter ≤ protocol.finalIndex →
      ∃ step, protocol.steps[run.session.counter]? = some step ∧
        (∀ generate plaintext, plaintext.length ≤ maxMessageLength →
          (run.session.OutOfTurn (.send generate plaintext) ↔ step.sender ≠ run.role)) ∧
        (∀ generate message, message.length ≤ maxMessageLength →
          (run.session.OutOfTurn (.recv generate message) ↔ step.sender = run.role)) ∧
        (∀ action, run.session.OutOfTurn (.rekey action)) ∧
        ∀ peer : Run protocol, peer.role = run.role.other →
          peer.session.failed = false →
          peer.session.counter = run.session.counter →
          ∀ generate plaintext message, plaintext.length ≤ maxMessageLength →
            message.length ≤ maxMessageLength →
            (run.session.OutOfTurn (.send generate plaintext) ↔
              ¬ peer.session.OutOfTurn (.send generate plaintext)) ∧
            (run.session.OutOfTurn (.send generate plaintext) ↔
              peer.session.OutOfTurn (.recv generate message)) ∧
            (run.session.OutOfTurn (.recv generate message) ↔
              peer.session.OutOfTurn (.send generate plaintext))) ∧
    (run.session.failed = false → protocol.finalIndex < run.session.counter →
      protocol.isOneWay = false →
      ∀ call, ¬ run.session.OutOfTurn call) ∧
    (run.session.failed = false → protocol.finalIndex < run.session.counter →
      protocol.isOneWay = true →
      ∃ first, protocol.steps[0]? = some first ∧
        (∀ generate plaintext, plaintext.length ≤ maxMessageLength →
          (run.session.OutOfTurn (.send generate plaintext) ↔
            first.sender ≠ run.role)) ∧
        (run.session.OutOfTurn (.rekey .send) ↔ first.sender ≠ run.role) ∧
        (∀ generate message, message.length ≤ maxMessageLength →
          (run.session.OutOfTurn (.recv generate message) ↔ first.sender = run.role)) ∧
        (run.session.OutOfTurn (.rekey .receive) ↔ first.sender = run.role)) ∧
    (∀ call, run.session.OutOfTurn call →
      (run.session.call call).session = run.session) ∧
    (protocol.isOneWay = true →
      ∃ first, protocol.steps[0]? = some first ∧
        (first.sender ≠ run.role → run.messages .send = 0) ∧
        (first.sender = run.role → run.messages .receive = 0)) := by
  obtain ⟨wellFormed, -, -⟩ := Protocol.isCompiled_of_compile compiled
  obtain ⟨first, opens⟩ := wellFormed.exists_step (Nat.zero_le _)
  refine ⟨?_, ?_, ?_, ?_, ?_⟩
  · intro usable early
    obtain ⟨step, found⟩ := wellFormed.exists_step early
    have rule := fun call (fits : Session.Call.Fits call) =>
      outOfTurn_of_handshake wellFormed usable early found fits
    refine ⟨step, found, ?_, ?_, ?_, ?_⟩
    · intro generate plaintext fits
      simp [rule (.send generate plaintext) fits, Session.Call.isRekey,
        Session.Call.action, Role.part]
    · intro generate message fits
      simp [rule (.recv generate message) fits, Session.Call.isRekey,
        Session.Call.action, Role.part]
    · intro action
      exact (rule (.rekey action) trivial).2 (.inl rfl)
    · intro peer other peerUsable level generate plaintext message fits short
      have peerRule := fun call (fits : Session.Call.Fits call) =>
        outOfTurn_of_handshake wellFormed peerUsable (level ▸ early)
          (level ▸ found) fits
      have different := run.role.part_other step.sender
      rw [rule (.send generate plaintext) fits, rule (.recv generate message) short,
        peerRule (.send generate plaintext) fits,
        peerRule (.recv generate message) short, other]
      simp only [Session.Call.isRekey, Session.Call.action]
      generalize run.role.part step.sender = own,
      run.role.other.part step.sender = theirs at different
      cases own <;> cases theirs <;> simp_all
  · intro usable late interactive call
    have inside := inTransport_of_late wellFormed usable late
    rw [← run.protocol_session] at interactive
    obtain ⟨channel, chosen⟩ := Session.exists_channel inside.isComplete interactive
    exact inside.not_outOfTurn chosen
  · intro usable late oneWay
    have rule := fun call (fits : Session.Call.Fits call) =>
      outOfTurn_of_oneWay wellFormed usable late oneWay opens fits
    refine ⟨first, opens, ?_, ?_, ?_, ?_⟩
    · intro generate plaintext fits
      simp [rule (.send generate plaintext) fits, Session.Call.action, Role.part]
    · simp [rule (.rekey .send) trivial, Session.Call.action, Role.part]
    · intro generate message fits
      simp [rule (.recv generate message) fits, Session.Call.action, Role.part]
    · simp [rule (.rekey .receive) trivial, Session.Call.action, Role.part]
  · intro call outOfTurn
    exact outOfTurn.session_eq (run.phase wellFormed)
  · intro oneWay
    have part := run.action_of_transfers wellFormed oneWay opens
    refine ⟨first, opens, ?_, ?_⟩
    · intro other
      rw [messages, List.countP_eq_zero]
      intro transfer mem
      simp [Transfer.isMessage, part transfer mem, Role.part, other]
    · intro own
      rw [messages, List.countP_eq_zero]
      intro transfer mem
      simp [Transfer.isMessage, part transfer mem, Role.part, own]

open Catalog in
/-- A one-way pattern that the responder starts.  Before its message the responder may
send and the initiator may not; afterwards the responder may send, but neither receive
nor replace a key for receiving. -/
theorem turns_are_exact_of_psk :
    ∃ protocol, ∃ sender receiver ended : Run protocol,
      Protocol.compile (entry "P" [] [Catalog.recv [psk]]).toDraft {} .active =
        .ok protocol ∧
      sender.role = .responder ∧ receiver.role = .initiator ∧
      ¬ sender.session.OutOfTurn (.send (fun _ => default) []) ∧
      receiver.session.OutOfTurn (.send (fun _ => default) []) ∧
      ¬ receiver.session.OutOfTurn (.recv (fun _ => default) []) ∧
      ended = sender.withHistory [.call (.send (fun _ => default) [])] ∧
      ¬ ended.session.OutOfTurn (.send (fun _ => default) [1]) ∧
      ended.session.OutOfTurn (.recv (fun _ => default) [1]) ∧
      (ended.session.call (.recv (fun _ => default) [1])).session = ended.session ∧
      ended.session.OutOfTurn (.rekey .receive) ∧ ended.messages .receive = 0 := by
  let secret : Keys := { psk := some (List.replicate 32 5) }
  obtain ⟨protocol, begun, peer, step, state, compiled, started, peerStarted, opens,
      going, turn, program, held, oneWay⟩ :
      ∃ protocol begun peer step state,
        Protocol.compile (entry "P" [] [Catalog.recv [psk]]).toDraft {} .active =
          .ok protocol ∧
        Session.start protocol .responder [] secret = .ok begun ∧
        Session.start protocol .initiator [] secret = .ok peer ∧
        protocol.steps[0]? = some step ∧ begun.due = some (step, state) ∧
        step.sender = .responder ∧
        step.write = [.mixKeyAndHash .psk, .authEncrypt .payload, .split] ∧
        state.psk = some (List.replicate 32 5) ∧ protocol.isOneWay = true :=
    ⟨_, _, _, _, _, rfl, rfl, rfl, rfl, rfl, rfl, rfl, rfl, rfl⟩
  obtain ⟨wellFormed, -, -⟩ := Protocol.isCompiled_of_compile compiled
  have role : begun.role = .responder := by
    obtain ⟨-, handshake, -, made⟩ := Session.of_start started
    rw [made]
  have fresh := Session.inHandshake_of_start started
  have peerFresh := Session.inHandshake_of_start peerStarted
  let sender : Run protocol :=
    { role := .responder, prologue := [], keys := secret, begun, started,
      history := [] }
  let receiver : Run protocol :=
    { role := .initiator, prologue := [], keys := secret, begun := peer,
      started := peerStarted, history := [] }
  let ended := sender.withHistory [.call (.send (fun _ => default) [])]
  have inside : ended.session.InTransport :=
    (ended.phase wellFormed).inTransport_of_key
      (Session.send_of_psk fresh.usable going (turn.trans role.symm) program held
        (by decide)).2
  have late : protocol.finalIndex < ended.session.counter := by
    have late := inside.late
    rw [ended.protocol_session] at late
    exact late
  have unsent : sender.session.counter = 0 := sender.counter_session
  have unheard : receiver.session.counter = 0 := receiver.counter_session
  obtain ⟨handshake, -⟩ := turns_are_exact compiled sender
  obtain ⟨due, found, sends, -, -, both⟩ :=
    handshake fresh.usable (unsent ▸ Nat.zero_le _)
  rw [unsent, opens] at found
  obtain rfl := Option.some.inj found
  obtain ⟨onlyOne, facing, -⟩ :=
    both receiver rfl peerFresh.usable (unheard.trans unsent.symm)
      (fun _ => default) [] [] (by decide) (by decide)
  have mine : ¬ sender.session.OutOfTurn (.send (fun _ => default) []) := by
    rw [sends _ _ (by decide)]
    exact not_not_intro turn
  obtain ⟨-, -, transport, unchanged, silent⟩ := turns_are_exact compiled ended
  obtain ⟨first, found, stillSends, -, receives, rekeys⟩ :=
    transport inside.usable late oneWay
  obtain ⟨_, found', -, unreceived⟩ := silent oneWay
  rw [opens] at found found'
  obtain rfl := Option.some.inj found
  obtain rfl := Option.some.inj found'
  have refused := (receives (fun _ => default) [1] (by decide)).2 turn
  refine ⟨protocol, sender, receiver, ended, compiled, rfl, rfl, mine, ?_, ?_, rfl, ?_,
    refused, unchanged _ refused, rekeys.2 turn, unreceived turn⟩
  · exact not_not.1 (mt onlyOne.2 mine)
  · exact mt facing.2 mine
  · rw [stillSends _ _ (by decide)]
    exact not_not_intro turn

end Run

end Noise
