import Noise.Proofs.Handshake.Guards
import Noise.Proofs.Session.FailClosed

/-!
# Sessions against the two attackers

A session against an active attacker does what a session against a passive attacker
does, call by call, until it fails.  It rejects a handshake message that the other
accepts if and only if the message carries a public key that is zero or the own one.
-/

namespace Noise

/-! ## The start of a session -/

theorem Program.uses_guarded (program : Program) (kind : KeyKind) :
    program.guarded.uses (.own kind) = program.uses (.own kind) := by
  rw [Program.uses, Program.uses, Program.guarded, List.any_flatMap]
  congr 1
  funext instruction
  cases learns : instruction.learns?
    <;> simp [Instruction.guarded, learns, Instruction.operands]

theorem Protocol.requires_guarded (protocol : Protocol) (role : Role) (kind : KeyKind) :
    protocol.guarded.requires role (.own kind) =
      protocol.requires role (.own kind) := by
  have programs : ∀ step : Step,
      (step.guarded.programFor role).uses (.own kind) =
        (step.programFor role).uses (.own kind) := by
    intro step
    rw [Step.programFor, Step.programFor]
    split
    next turn => rw [if_pos (show step.sender = role from turn)]; rfl
    next turn =>
      rw [if_neg (show ¬ step.sender = role from turn), Step.guarded,
        Program.uses_guarded]
  simp [requires, programsFor, guarded, Function.comp_def, programs]

@[simp] theorem Protocol.finalIndex_guarded (protocol : Protocol) :
    protocol.guarded.finalIndex = protocol.finalIndex := rfl

@[simp] theorem Protocol.suite_guarded (protocol : Protocol) :
    protocol.guarded.suite = protocol.suite := rfl

@[simp] theorem Protocol.getElem?_steps_guarded (protocol : Protocol) (index : Nat) :
    protocol.guarded.steps[index]? = protocol.steps[index]?.map Step.guarded :=
  List.getElem?_map ..

namespace Session

/-- The session as one of another protocol. -/
def under (protocol : Protocol) (session : Session) : Session :=
  { session with protocol }

theorem start_guarded (protocol : Protocol) (role : Role) (prologue : Bytes)
    (keys : Keys) :
    start protocol.guarded role prologue keys =
      (start protocol role prologue keys).map (under protocol.guarded) := by
  have samePsk : checkPsk protocol.guarded = checkPsk protocol := rfl
  have sameStart :
      HandshakeState.start protocol.guarded = HandshakeState.start protocol := rfl
  have sameSuite : protocol.guarded.suite = protocol.suite := rfl
  have sameHasPsk : protocol.guarded.hasPsk = protocol.hasPsk := rfl
  have sameName : protocol.guarded.name = protocol.name := rfl
  rw [start, start, protocol.requires_guarded, samePsk, sameStart, sameSuite,
    sameHasPsk, sameName]
  cases checkPsk protocol keys.psk with
  | error error => rfl
  | ok =>
      cases keys.s.isNone && protocol.requires role (.own .static) with
      | true => rfl
      | false =>
          cases checkFunction protocol.suite keys.s with
          | error error => rfl
          | ok =>
              cases checkFunction protocol.suite keys.e with
              | error error => rfl
              | ok =>
                  simp only [ok_bind]
                  cases HandshakeState.start protocol role prologue _ <;> rfl

/-! ## Calls side by side -/

section Under

variable (session : Session) (protocol : Protocol)

@[simp] theorem protocol_under : (session.under protocol).protocol = protocol := rfl

@[simp] theorem role_under : (session.under protocol).role = session.role := rfl

@[simp] theorem handshake_under :
    (session.under protocol).handshake = session.handshake := rfl

@[simp] theorem counter_under :
    (session.under protocol).counter = session.counter := rfl

@[simp] theorem failed_under : (session.under protocol).failed = session.failed := rfl

@[simp] theorem cipher_under : (session.under protocol).cipher = session.cipher := by
  funext channel
  cases channel <;> rfl

end Under

variable {session : Session} {generate : KeyGenerator} {plaintext message : Bytes}

/-- What a session with checks answers, beside the session without them: the
same, or it fails. -/
inductive Shadows (protocol : Protocol) (own guarded : Reply) : Prop where
  | agrees : guarded.result = own.result →
      guarded.session = own.session.under protocol →
      Shadows protocol own guarded
  | drops {error : ProtocolError} : guarded.result = .error error →
      guarded.session.failed = true →
      Shadows protocol own guarded

/-- The two sessions choose the same channels. -/
theorem channel_guarded :
    (session.under session.protocol.guarded).channel = session.channel := by
  have sameSender :
      session.protocol.guarded.oneWaySender = session.protocol.oneWaySender := by
    simp only [Protocol.oneWaySender, Protocol.guarded, List.head?_map, Option.map_map]
    rfl
  funext action
  simp only [channel, under, sameSender]
  rfl

theorem drops_fail {own : Reply} {error : ProtocolError}
    (ofProtocol : error.isOfProtocol) (drewKey : Bool) :
    Shadows session.protocol.guarded own
      ((session.under session.protocol.guarded).fail error drewKey) := by
  refine .drops rfl ?_
  rw [fail, afterError, if_pos ⟨rfl, ofProtocol⟩]
  rfl

theorem shadows_rekey (action : Action) :
    Shadows session.protocol.guarded (session.call (.rekey action))
      ((session.under session.protocol.guarded).call (.rekey action)) := by
  simp only [call, rekey, failed_under, cipher_under, protocol_under,
    Protocol.suite_guarded, channel_guarded]
  cases session.failed with
  | true => exact .agrees rfl rfl
  | false =>
      cases session.channel action with
      | error error => exact .agrees rfl rfl
      | ok channel =>
          simp only [Bool.false_eq_true, ↓reduceIte, haltAt, mapError_ok, ok_bind]
          cases (session.cipher channel).rekey session.protocol.suite.cipher with
          | error halt => exact .agrees rfl (by cases channel <;> rfl)
          | ok cipher => exact .agrees rfl (by cases channel <;> rfl)

section Passive

variable (passive : session.protocol.attacker = .passive)
include passive

theorem shadows_fail (error : ProtocolError) (drewKey : Bool) :
    Shadows session.protocol.guarded (session.fail error drewKey)
      ((session.under session.protocol.guarded).fail error drewKey) := by
  cases ofProtocol : error.isOfProtocol with
  | true => exact drops_fail ofProtocol drewKey
  | false =>
      refine .agrees rfl ?_
      rw [session_fail passive, fail, afterError, if_neg (by simp [ofProtocol])]

theorem shadows_commit (maximum : Option Nat) (result : Except Stopped Outcome) :
    Shadows session.protocol.guarded (session.commit maximum result)
      ((session.under session.protocol.guarded).commit maximum result) := by
  cases result with
  | error stopped => exact shadows_fail passive _ _
  | ok outcome =>
      simp only [commit]
      split
      · exact shadows_fail passive _ _
      · refine .agrees rfl ?_
        simp only [advance]
        cases outcome.ending <;> rfl

theorem shadows_commitTransport (channel : Channel)
    (result : Except (Halt CipherState) (Bytes × CipherState)) :
    Shadows session.protocol.guarded (session.commitTransport channel result)
      ((session.under session.protocol.guarded).commitTransport channel result) := by
  cases result with
  | error halt =>
      cases channel with
      | a => exact @shadows_fail (session.withCipher .a halt.state) passive _ _
      | b => exact @shadows_fail (session.withCipher .b halt.state) passive _ _
  | ok pair => exact .agrees rfl (by cases channel <;> rfl)

theorem shadows_send :
    Shadows session.protocol.guarded (session.send generate plaintext)
      ((session.under session.protocol.guarded).send generate plaintext) := by
  simp only [send, failed_under, counter_under, role_under, handshake_under,
    cipher_under, protocol_under, Protocol.finalIndex_guarded, Protocol.suite_guarded,
    Protocol.getElem?_steps_guarded, channel_guarded]
  split
  · exact .agrees rfl rfl
  · split
    · cases session.protocol.steps[session.counter]? with
      | none => exact .agrees rfl rfl
      | some step =>
          cases session.handshake with
          | none => exact .agrees rfl rfl
          | some state =>
              by_cases turn : step.sender = session.role
              · simp only [Option.map_some, Step.guarded, turn, ↓reduceIte]
                exact shadows_commit passive _ _
              · simp only [Option.map_some, Step.guarded, turn, ↓reduceIte]
                exact .agrees rfl rfl
    · cases session.channel .send with
      | error error => exact .agrees rfl rfl
      | ok channel =>
          simp only
          split
          · exact .agrees rfl rfl
          · exact shadows_commitTransport passive _ _

end Passive

/-- What an incoming message comes to on both sides: the step that is due reads it, with
or without checks, or it is refused, or it is a transport message. -/
inductive Receives (session : Session) (generate : KeyGenerator) (message : Bytes) :
    Reply → Reply → Prop where
  | handshake {step : Step} {state : HandshakeState} :
      session.due = some (step, state) →
      Receives session generate message
        (session.commit none
          (state.read session.protocol.suite generate step.read message))
        ((session.under session.protocol.guarded).commit none
          (state.read session.protocol.suite generate step.read.guarded message))
  | refused (error : ProtocolError) :
      Receives session generate message (session.refuse error)
        ((session.under session.protocol.guarded).refuse error)
  | transport (channel : Channel)
      (result : Except (Halt CipherState) (Bytes × CipherState)) :
      session.due = none →
      Receives session generate message (session.commitTransport channel result)
        ((session.under session.protocol.guarded).commitTransport channel result)

theorem receives_recv (session : Session) (generate : KeyGenerator) (message : Bytes) :
    session.Receives generate message (session.recv generate message)
      ((session.under session.protocol.guarded).recv generate message) := by
  simp only [recv, failed_under, counter_under, role_under, handshake_under,
    cipher_under, protocol_under, Protocol.finalIndex_guarded, Protocol.suite_guarded,
    Protocol.getElem?_steps_guarded, channel_guarded]
  split
  · exact .refused _
  · split
    · exact .refused _
    · split
      next early =>
        cases found : session.protocol.steps[session.counter]? with
        | none => exact .refused _
        | some step =>
            cases going : session.handshake with
            | none => exact .refused _
            | some state =>
                have due := due_eq_some.2 ⟨early, found, going⟩
                by_cases turn : step.receiver = session.role
                · simp only [Option.map_some, Step.guarded, Step.receiver] at turn ⊢
                  simp only [turn, ↓reduceIte]
                  exact .handshake due
                · simp only [Option.map_some, Step.guarded, Step.receiver] at turn ⊢
                  simp only [turn, ↓reduceIte]
                  exact .refused _
      next late =>
        cases session.channel .receive with
        | error error => exact .refused _
        | ok channel => exact .transport _ _ (if_neg late)

theorem result_commit (session : Session) (result : Except Stopped Outcome)
    (payload : Bytes) :
    (session.commit none result).result = .ok payload ↔
      ∃ outcome, result = .ok outcome ∧ outcome.message = payload := by
  cases result with
  | error stopped => simp [commit, fail]
  | ok outcome => simp [commit]

section Compiled

variable (compiled : session.protocol.IsCompiled)
  (passive : session.protocol.attacker = .passive)
include compiled passive

/-- The receiver of a message makes no key, and reads the keys that the tokens
of the message say. -/
theorem due_learns {step : Step} {state : HandshakeState}
    (due : session.due = some (step, state)) :
    .generateEphemeral ∉ step.read ∧
      ∃ row, session.protocol.pattern.messages[session.counter]? = some row ∧
        step.read.filterMap (·.learns?) = row.tokens.filterMap Token.keyKind? := by
  obtain ⟨early, found, -⟩ := due_eq_some.1 due
  obtain ⟨row, there, rfl⟩ := compiled.eq_ofMessage early found
  rw [passive]
  obtain ⟨draws, kinds⟩ := Step.read_learns session.protocol.suite
    (.ofAnalysis session.protocol.analysis session.counter) row
  exact ⟨draws, row, there, kinds⟩

theorem shadows_recv :
    Shadows session.protocol.guarded (session.recv generate message)
      ((session.under session.protocol.guarded).recv generate message) := by
  have receives := receives_recv session generate message
  generalize session.recv generate message = own at receives ⊢
  generalize (session.under session.protocol.guarded).recv generate message =
    guarded at receives ⊢
  cases receives with
  | handshake due =>
      obtain ⟨draws, -⟩ := due_learns compiled passive due
      rcases HandshakeState.read_guarded draws with
        ⟨-, same⟩ | ⟨-, stopped, stops, ofProtocol⟩
      · rw [same]
        exact shadows_commit passive _ _
      · rw [stops]
        exact drops_fail ofProtocol _
  | refused => exact .agrees rfl rfl
  | transport => exact shadows_commitTransport passive _ _

theorem shadows_call (call : Call) :
    Shadows session.protocol.guarded (session.call call)
      ((session.under session.protocol.guarded).call call) := by
  cases call with
  | send => exact shadows_send passive
  | recv => exact shadows_recv compiled passive
  | rekey action => exact shadows_rekey action

/-- A handshake message is accepted with checks if it is accepted without and all its
keys are acceptable. -/
theorem recv_guarded {step : Step} {state : HandshakeState}
    (due : session.due = some (step, state)) (payload : Bytes) :
    ((session.under session.protocol.guarded).recv generate message).result =
      .ok payload ↔
      (session.recv generate message).result = .ok payload ∧
        ∀ entry ∈ state.carried session.protocol.suite generate step.read message,
          state.Accepts entry.1 entry.2 := by
  have receives := receives_recv session generate message
  generalize session.recv generate message = own at receives ⊢
  generalize (session.under session.protocol.guarded).recv generate message =
    guarded at receives ⊢
  cases receives with
  | handshake same =>
      obtain ⟨rfl, rfl⟩ := Prod.mk.inj (Option.some.inj (due.symm.trans same))
      obtain ⟨draws, -⟩ := due_learns compiled passive due
      rw [result_commit, result_commit]
      rcases HandshakeState.read_guarded draws with
        ⟨accepts, same⟩ | ⟨rejects, stopped, stops, -⟩
      · rw [same]
        exact ⟨fun read => ⟨read, accepts⟩, fun read => read.1⟩
      · rw [stops]
        constructor
        · rintro ⟨outcome, ⟨⟩, -⟩
        · rintro ⟨-, accepts⟩
          exact absurd accepts rejects
  | refused error => simp [refuse]
  | transport _ _ ended => cases due.symm.trans ended

/-- A message that is accepted carries the keys that its tokens say. -/
theorem kinds_of_recv {step : Step} {state : HandshakeState} {payload : Bytes}
    (due : session.due = some (step, state))
    (received : (session.recv generate message).result = .ok payload) :
    ∃ row, session.protocol.pattern.messages[session.counter]? = some row ∧
      (state.carried session.protocol.suite generate step.read message).map (·.1) =
        row.tokens.filterMap Token.keyKind? := by
  obtain ⟨-, row, there, kinds⟩ := due_learns compiled passive due
  refine ⟨row, there, ?_⟩
  have receives := receives_recv session generate message
  generalize session.recv generate message = own at receives received
  generalize (session.under session.protocol.guarded).recv generate message =
    guarded at receives
  cases receives with
  | handshake same =>
      obtain ⟨rfl, rfl⟩ := Prod.mk.inj (Option.some.inj (due.symm.trans same))
      obtain ⟨outcome, read, -⟩ := (result_commit ..).1 received
      rw [HandshakeState.kinds_carried read, kinds]
  | refused error => cases received
  | transport _ _ ended => cases due.symm.trans ended

end Compiled

/-! ## Histories side by side -/

/-- What some calls return when they are made in order. -/
def results (session : Session) : List Call → List (Except ProtocolError Bytes)
  | [] => []
  | call :: rest =>
      (session.call call).result :: results (session.call call).session rest

theorem failed_after (failed : session.failed = true) (calls : List Call) :
    (session.after calls).failed = true := by
  induction calls generalizing session with
  | nil => exact failed
  | cons call rest ih =>
      exact ih ((moves_next session (.call call)).failed_of_failed failed)

theorem after_eq_follow (session : Session) (calls : List Call) :
    session.after calls = session.follow (calls.map .call) := by
  rw [follow, List.foldl_map]
  rfl

/-- As long as it has not failed, the session with checks has done what the
one without has done. -/
theorem after_guarded {protocol : Protocol} (compiled : protocol.IsCompiled)
    (passive : protocol.attacker = .passive) (same : session.protocol = protocol)
    (calls : List Call)
    (usable : ((session.under protocol.guarded).after calls).failed = false) :
    (session.under protocol.guarded).after calls =
      (session.after calls).under protocol.guarded ∧
      (session.under protocol.guarded).results calls = session.results calls := by
  induction calls generalizing session with
  | nil => exact ⟨rfl, rfl⟩
  | cons call rest ih =>
      have shadows : Shadows protocol.guarded (session.call call)
          ((session.under protocol.guarded).call call) := by
        subst same
        exact shadows_call compiled passive call
      cases shadows with
      | agrees sameResult sameSession =>
          have stillUsable :
              (((session.call call).session.under protocol.guarded).after rest).failed =
                false := by
            rw [← sameSession]
            exact usable
          obtain ⟨sameAfter, sameResults⟩ :=
            ih ((protocol_call call).trans same) stillUsable
          constructor
          · change ((session.under protocol.guarded).call call).session.after rest = _
            rw [sameSession]
            exact sameAfter
          · rw [results, results, sameResult, sameSession, sameResults]
      | drops result failed => cases usable.symm.trans (failed_after failed rest)

/-- Checks are all that an active attacker makes a session do.  Two sessions start with
the same keys, or with the same error, one of them against a passive and one against an
active attacker, and get the same calls.  As long as the one against the active
attacker has not failed, both have returned the same and are in the same state.  If
then the one fails to return from a call, so does the other; and it accepts a handshake
message if and only if the one does and none of the public keys in the message is zero
or the own one of its kind. -/
theorem active_is_passive_with_checks {draft : Draft} {suite : Suite}
    {passive active : Protocol}
    (compiledPassive : Protocol.compile draft suite .passive = .ok passive)
    (compiledActive : Protocol.compile draft suite .active = .ok active) (role : Role)
    (prologue : Bytes) (keys : Keys) :
    start active role prologue keys =
      (start passive role prologue keys).map (under active) ∧
    ∀ own guarded, start passive role prologue keys = .ok own →
      start active role prologue keys = .ok guarded →
      ∀ calls, (guarded.after calls).failed = false →
        guarded.after calls = (own.after calls).under active ∧
        guarded.results calls = own.results calls ∧
        (∀ call error, ((own.after calls).call call).result = .error error →
          ∃ error, ((guarded.after calls).call call).result = .error error) ∧
        ((own.after calls).counter ≤ passive.finalIndex →
          ∃ step state, (own.after calls).due = some (step, state) ∧
            ∀ generate message payload,
            (((guarded.after calls).recv generate message).result = .ok payload ↔
              ((own.after calls).recv generate message).result = .ok payload ∧
                ∀ entry ∈ state.carried suite generate step.read message,
                  state.Accepts entry.1 entry.2) ∧
            (((own.after calls).recv generate message).result = .ok payload →
              ∃ row, passive.pattern.messages[(own.after calls).counter]? = some row ∧
                (state.carried suite generate step.read message).map (·.1) =
                  row.tokens.filterMap Token.keyKind?)) := by
  rw [Protocol.compile_active, compiledPassive] at compiledActive
  obtain rfl := Except.ok.inj compiledActive
  obtain ⟨wellFormed, rfl, attacker⟩ := Protocol.isCompiled_of_compile compiledPassive
  refine ⟨start_guarded passive role prologue keys, ?_⟩
  intro own guarded started startedGuarded calls usable
  rw [start_guarded, started] at startedGuarded
  obtain rfl := Except.ok.inj startedGuarded
  have sameBefore : own.protocol = passive := by
    obtain ⟨-, handshake, -, rfl⟩ := of_start started
    rfl
  obtain ⟨sameAfter, sameResults⟩ :=
    after_guarded wellFormed attacker sameBefore calls usable
  have same : (own.after calls).protocol = passive :=
    (protocol_after calls).trans sameBefore
  have phase : (own.after calls).Phase := by
    rw [← sameBefore] at wellFormed
    rw [after_eq_follow]
    exact Phase.follow (.handshake (inHandshake_of_start started)) wellFormed _
  rw [sameAfter] at usable ⊢
  generalize own.after calls = reached at same phase usable
  subst same
  refine ⟨rfl, sameResults, ?_, ?_⟩
  · intro call error failed
    cases shadows_call wellFormed attacker call with
    | agrees sameResult => exact ⟨error, sameResult.trans failed⟩
    | drops result => exact ⟨_, result⟩
  · intro early
    obtain ⟨⟨step, state⟩, due⟩ :=
      Option.ne_none_iff_exists'.1 ((phase.inHandshake usable early).due_ne_none
        wellFormed)
    refine ⟨step, state, due, ?_⟩
    intro generate message payload
    exact ⟨recv_guarded wellFormed attacker due payload,
      kinds_of_recv wellFormed attacker due⟩

open Catalog in
/-- A responder that has been asked for a new key too early gets a first message.  With
a proper key both sessions accept it; with a key of zeros only the one against the
passive attacker does. -/
theorem active_is_passive_with_checks_of_NN :
    ∃ passive active own guarded,
      Protocol.compile (entry "NN" [] [Catalog.send [e], Catalog.recv [e, ee]]).toDraft
        {} .passive = .ok passive ∧
      Protocol.compile (entry "NN" [] [Catalog.send [e], Catalog.recv [e, ee]]).toDraft
        {} .active = .ok active ∧
      start passive .responder [] {} = .ok own ∧
      start active .responder [] {} = .ok guarded ∧
      (guarded.after [.rekey .send]).failed = false ∧
      ((guarded.after [.rekey .send]).recv (fun _ => default)
        (List.replicate 40 7)).result = .ok (List.replicate 8 7) ∧
      ((own.after [.rekey .send]).recv (fun _ => default)
        (List.replicate 40 0)).result = .ok (List.replicate 8 0) ∧
      ∀ payload,
        ((guarded.after [.rekey .send]).recv (fun _ => default)
          (List.replicate 40 0)).result ≠
        .ok payload := by
  obtain ⟨passive, active, own, guarded, step, state, compiledPassive, compiledActive,
      started, startedGuarded, usable, early, due, sevens, zeros, proper, improper,
      keyless⟩ :
      ∃ passive active own guarded step state,
        Protocol.compile (entry "NN" []
          [Catalog.send [e], Catalog.recv [e, ee]]).toDraft {} .passive = .ok passive ∧
        Protocol.compile (entry "NN" []
          [Catalog.send [e], Catalog.recv [e, ee]]).toDraft {} .active = .ok active ∧
        start passive .responder [] {} = .ok own ∧
        start active .responder [] {} = .ok guarded ∧
        (guarded.after [.rekey .send]).failed = false ∧
        (own.after [.rekey .send]).counter ≤ passive.finalIndex ∧
        (own.after [.rekey .send]).due = some (step, state) ∧
        ((own.after [.rekey .send]).recv (fun _ => default)
          (List.replicate 40 7)).result = .ok (List.replicate 8 7) ∧
        ((own.after [.rekey .send]).recv (fun _ => default)
          (List.replicate 40 0)).result = .ok (List.replicate 8 0) ∧
        state.carried {} (fun _ => default) step.read (List.replicate 40 7) =
          [(.ephemeral, List.replicate 32 7)] ∧
        state.carried {} (fun _ => default) step.read (List.replicate 40 0) =
          [(.ephemeral, List.replicate 32 0)] ∧ state.e = none :=
    ⟨_, _, _, _, _, _, rfl, rfl, rfl, rfl, rfl, Nat.zero_le _, rfl, rfl, rfl, rfl,
      rfl, rfl⟩
  obtain ⟨-, sideBySide⟩ :=
    active_is_passive_with_checks compiledPassive compiledActive .responder [] {}
  obtain ⟨-, -, -, reads⟩ :=
    sideBySide own guarded started startedGuarded [.rekey .send] usable
  obtain ⟨_, _, same, reads⟩ := reads early
  obtain ⟨rfl, rfl⟩ := Prod.mk.inj (Option.some.inj (due.symm.trans same))
  refine ⟨passive, active, own, guarded, compiledPassive, compiledActive, started,
    startedGuarded, usable, (reads _ _ _).1.2 ⟨sevens, ?_⟩, zeros, ?_⟩
  · rw [proper]
    intro entry mem
    obtain rfl := List.mem_singleton.1 mem
    refine ⟨rfl, ?_⟩
    intro pair held
    cases keyless.symm.trans held
  · intro payload received
    have accepts := ((reads _ _ _).1.1 received).2
    rw [improper] at accepts
    cases (accepts _ (List.mem_singleton_self _)).1

end Session

end Noise
