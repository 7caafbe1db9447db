import Noise.Proofs.Dh.Ladder
import Noise.Proofs.Session.Turns

/-!
# Errors of a session

A session gives no other errors than those of the protocol: its counter always leads to
a step, the handshake state is there while the handshake lasts, and every cipher has a
key and a counter that its cipher function takes.  An agreement with a bad public key
ends a call with an error for that key.
-/

namespace Noise

/-! ## Start -/

namespace Session

variable {protocol : Protocol} {role : Role} {prologue : Bytes} {keys : Keys}
  {session : Session} {error : ProtocolError}

theorem isOfProtocol_of_checkPsk {psk : Option Bytes}
    (failed : checkPsk protocol psk = .error error) :
    error.isOfProtocol := by
  simp only [checkPsk] at failed
  split at failed
  · split at failed
    · obtain rfl := Except.error.inj failed
      rfl
    · split at failed
      · cases failed
      · obtain rfl := Except.error.inj failed
        rfl
  · cases failed

theorem isOfProtocol_of_checkFunction {suite : Suite} {pair : Option KeyPair}
    (failed : checkFunction suite pair = .error error) : error.isOfProtocol := by
  cases pair with
  | none => cases failed
  | some pair =>
      simp only [checkFunction] at failed
      split at failed
      · cases failed
      · obtain rfl := Except.error.inj failed
        rfl

theorem isOfStep_of_start
    (failed : HandshakeState.start protocol role prologue keys = .error error) :
    error.isOfStep := by
  simp only [HandshakeState.start] at failed
  split at failed
  · cases failed
  next stopped ran =>
    obtain rfl := Except.error.inj failed
    have fresh : (HandshakeState.ofKeys protocol keys).WellFormed protocol.suite :=
      SymmetricState.wellFormed_start ..
    exact (fresh.machine rfl).isOfStep_of_run ran

/-- A session starts, or is refused with an error of the protocol. -/
theorem isOfProtocol_of_start
    (failed : start protocol role prologue keys = .error error) :
    error.isOfProtocol := by
  rcases bind_eq_error.1 failed with failed | ⟨⟨⟩, -, failed⟩
  · exact isOfProtocol_of_checkPsk failed
  by_cases missing : keys.s.isNone && protocol.requires role (.own .static)
  · rw [if_pos missing] at failed
    obtain rfl := Except.error.inj failed
    rfl
  rw [if_neg missing] at failed
  rcases bind_eq_error.1 failed with failed | ⟨⟨⟩, -, failed⟩
  · exact isOfProtocol_of_checkFunction failed
  rcases bind_eq_error.1 failed with failed | ⟨⟨⟩, -, failed⟩
  · exact isOfProtocol_of_checkFunction failed
  rcases bind_eq_error.1 failed with failed | ⟨handshake, -, failed⟩
  · exact (ProtocolError.kind_of_isOfStep (isOfStep_of_start failed)).1
  · cases failed

/-! ## Calls -/

/-- The ciphers of a session: those of the two channels, and that of the handshake. -/
def ciphers (session : Session) : List CipherState :=
  session.cipherA :: session.cipherB ::
    (session.handshake.map (·.symmetric.cipher)).toList

theorem Phase.wellFormed_of_ciphers (phase : session.Phase) :
    ∀ cipher ∈ session.ciphers, cipher.WellFormed := by
  intro cipher member
  rcases List.mem_cons.1 member with rfl | member
  · exact phase.wellFormed .a
  rcases List.mem_cons.1 member with rfl | member
  · exact phase.wellFormed .b
  · obtain ⟨state, held, rfl⟩ := Option.map_eq_some_iff.1 (Option.mem_toList.1 member)
    exact (phase.wellFormed_handshake state held).cipher

theorem isOfProtocol_of_call {call : Call} (phase : session.Phase)
    (compiled : session.protocol.IsCompiled)
    (failed : (session.call call).result = .error error) : error.isOfProtocol := by
  have answers := answers_call session call
  generalize session.call call = reply at answers failed
  cases answers with
  | refused refuses =>
      obtain rfl := Except.error.inj failed
      exact (refuses.isRefusal phase compiled).1
  | failed usable fails =>
      obtain rfl := Except.error.inj failed
      exact (fails.not_isRefusal phase usable).1
  | exchanged | transported | rekeyed => cases failed

/-! ## Agreements -/

/-- Calls that come to an agreement between a key pair and a public key. -/
inductive Agrees (session : Session) : Call → KeyPair → Bytes → Prop where
  | send {generate : KeyGenerator} {payload : Bytes} {step : Step}
      {state : HandshakeState}
      {before after : Program} {ownKind peerKind : KeyKind} {machine : Machine}
      {pair : KeyPair} {key : Bytes} :
      session.due = some (step, state) → step.sender = session.role →
      step.write = before ++ .mixKey (.dh (.own ownKind) (.peer peerKind)) :: after →
      Machine.run session.protocol.suite generate
        { state, frame := { payload } } before = .ok machine →
      machine.state.own ownKind = some pair → machine.state.peer peerKind = some key →
      Agrees session (.send generate payload) pair key
  | recv {generate : KeyGenerator} {input : Bytes} {step : Step}
      {state : HandshakeState}
      {before after : Program} {ownKind peerKind : KeyKind} {machine : Machine}
      {pair : KeyPair} {key : Bytes} :
      session.due = some (step, state) → step.receiver = session.role →
      input.length ≤ maxMessageLength →
      step.read = before ++ .mixKey (.dh (.own ownKind) (.peer peerKind)) :: after →
      Machine.run session.protocol.suite generate { state, frame := { input } } before =
        .ok machine →
      machine.state.own ownKind = some pair → machine.state.peer peerKind = some key →
      Agrees session (.recv generate input) pair key

end Session

/-- A program stops at an agreement that fails. -/
theorem Machine.run_of_agree {suite : Suite} {generate : KeyGenerator}
    {start machine : Machine} {before after : Program} {ownKind peerKind : KeyKind}
    {pair : KeyPair} {key : Bytes} {error : ProtocolError}
    (ran : start.run suite generate before = .ok machine)
    (own : machine.state.own ownKind = some pair)
    (peer : machine.state.peer peerKind = some key)
    (failed : pair.agree key = .error error) :
    start.run suite generate
      (before ++ .mixKey (.dh (.own ownKind) (.peer peerKind)) :: after) =
      .error { machine, error } := by
  have agreed : machine.source (.dh (.own ownKind) (.peer peerKind)) =
      .error error := by
    simp only [source, HandshakeState.keyPair_own, own, ok_bind,
      value_peer.2 peer, failed]
  rw [run_append, ran, ok_bind, run_cons]
  simp only [exec, agreed]
  rfl

namespace Session

variable {session : Session} {call : Call} {pair : KeyPair} {key : Bytes}
  {error : ProtocolError}

/-- A call that comes to an agreement fails with it. -/
theorem Agrees.result_eq (agrees : session.Agrees call pair key)
    (usable : session.failed = false) (failed : pair.agree key = .error error) :
    (session.call call).result = .error error := by
  cases agrees with
  | send due turn parted ran own peer =>
      obtain ⟨early, found, going⟩ := due_eq_some.1 due
      rw [Session.call, send_handshake usable early found going turn,
        HandshakeState.write, parted, Machine.run_of_agree ran own peer failed]
      rfl
  | recv due turn fits parted ran own peer =>
      obtain ⟨early, found, going⟩ := due_eq_some.1 due
      rw [Session.call, recv_handshake usable fits early found going turn,
        HandshakeState.read, parted, Machine.run_of_agree ran own peer failed]
      rfl

end Session

/-! ## Every session that can be reached -/

namespace Run

variable {protocol : Protocol} {run : Run protocol} {call : Session.Call}
  {pair : KeyPair} {key : Bytes}

/-- The key pair of an agreement belongs to the function of the suite. -/
theorem ofFunction_of_agrees (compiled : protocol.IsCompiled)
    (agrees : run.session.Agrees call pair key) :
    pair.dh = protocol.suite.dh := by
  cases agrees with
  | @send _ _ _ _ _ _ ownKind _ _ _ _ due _ _ ran own _
      | @recv _ _ _ _ _ _ ownKind _ _ _ _ due _ _ _ ran own _ =>
      obtain ⟨message, begun, -, isDue⟩ := isDue_of_due compiled due
      rw [run.protocol_session] at ran
      exact Machine.keys_of_run
        (fun _ _ _ changes before => changes.ofFunction before) ran
        (isDue.ofFunction compiled) ownKind pair own

/-- A session gives errors of the protocol only, from its start and after any history.
While it is usable and the handshake lasts, its counter leads to a step and the
handshake state is there.  Every key of its ciphers has a length that the cipher takes,
and every counter that is not used up has a nonce.  A call that comes to an agreement
that fails ends with its error, which is one for the public key; and every key of the
wrong length or of low order makes the agreement fail. -/
theorem only_protocol_errors {draft : Draft} {suite : Suite} {attacker : AttackerModel}
    {protocol : Protocol}
    (compiled : Protocol.compile draft suite attacker = .ok protocol) :
    (∀ role prologue keys error,
      Session.start protocol role prologue keys = .error error → error.isOfProtocol) ∧
    ∀ run : Run protocol,
      (∀ call error, (run.session.call call).result = .error error →
        error.isOfProtocol) ∧
      (run.session.failed = false → run.session.counter ≤ protocol.finalIndex →
        ∃ step state,
          protocol.steps[run.session.counter]? = some step ∧
          run.session.handshake = some state) ∧
      (∀ cipher ∈ run.session.ciphers,
        (∀ key ∈ cipher.key, suite.cipher.keyLengths.contains key.length) ∧
        (cipher.nonce < maxNonce → ∃ nonce,
          suite.cipher.nonce? cipher.nonce = .ok nonce)) ∧
      ∀ call pair key, run.session.failed = false → run.session.Agrees call pair key →
        (∀ error, pair.agree key = .error error →
          (run.session.call call).result = .error error ∧ error.kind = .publicKey) ∧
        (key.length ≠ suite.dh.keyLength ∨ suite.dh.HasLowOrder key →
          ∃ error, pair.agree key = .error error) := by
  obtain ⟨wellFormed, rfl, -⟩ := Protocol.isCompiled_of_compile compiled
  refine ⟨fun role prologue keys error => Session.isOfProtocol_of_start, ?_⟩
  intro run
  have phase := run.phase wellFormed
  have stillCompiled := isCompiled_session wellFormed run
  refine ⟨fun call error => Session.isOfProtocol_of_call phase stillCompiled,
    ?_, ?_, ?_⟩
  · intro usable early
    rw [← congrArg Protocol.finalIndex run.protocol_session] at early
    obtain ⟨⟨step, state⟩, due⟩ :=
      Option.ne_none_iff_exists'.1 ((phase.inHandshake usable early).due_ne_none
        stillCompiled)
    obtain ⟨-, found, going⟩ := Session.due_eq_some.1 due
    rw [run.protocol_session] at found
    exact ⟨step, state, found, going⟩
  · intro cipher member
    have sound := phase.wellFormed_of_ciphers cipher member
    refine ⟨?_, fun left => ⟨_, CipherState.nonce?_eq_ok _ sound.nonce_nonneg left⟩⟩
    intro key held
    rw [sound.length_key key held]
    exact CipherState.keyLength_mem_keyLengths _
  · intro call pair key usable agrees
    constructor
    · intro error failed
      exact ⟨agrees.result_eq usable failed, KeyPair.kind_of_agree failed⟩
    · intro bad
      rw [← ofFunction_of_agrees wellFormed agrees] at bad
      exact KeyPair.agree_eq_error bad

open Catalog in
/-- An initiator that has sent its first message refuses a key of zeros for that key,
though no program looks for zeros against a passive attacker. -/
theorem only_protocol_errors_of_NN :
    ∃ protocol, ∃ run : Run protocol, ∃ error,
      Protocol.compile (entry "NN" [] [Catalog.send [e], Catalog.recv [e, ee]]).toDraft
        {} .passive = .ok protocol ∧
      run.session.failed = false ∧ run.session.counter = 1 ∧
      (run.session.call (.recv (fun _ => default) (List.replicate 32 0))).result =
        .error error ∧
      error.kind = .publicKey ∧ error.isOfProtocol := by
  obtain ⟨protocol, begun, step, state, after, machine, pair, compiled, started, usable,
      counted, due, turn, parted, ran, own, peer⟩ :
      ∃ protocol begun step state after machine pair,
        Protocol.compile (entry "NN" []
          [Catalog.send [e], Catalog.recv [e, ee]]).toDraft {} .passive = .ok protocol ∧
        Session.start protocol .initiator [] {} = .ok begun ∧
        (begun.follow [.call (.send (fun _ => default) [])]).failed = false ∧
        (begun.follow [.call (.send (fun _ => default) [])]).counter = 1 ∧
        (begun.follow [.call (.send (fun _ => default) [])]).due = some (step, state) ∧
        step.receiver = .initiator ∧
        step.read = [.parse (.peer .ephemeral) 32, .mixHash (.peer .ephemeral)] ++
          .mixKey (.dh (.own .ephemeral) (.peer .ephemeral)) :: after ∧
        Machine.run protocol.suite (fun _ => default)
          { state, frame := { input := List.replicate 32 0 } }
          [.parse (.peer .ephemeral) 32, .mixHash (.peer .ephemeral)] = .ok machine ∧
        machine.state.own .ephemeral = some pair ∧
        machine.state.peer .ephemeral = some (List.replicate 32 0) :=
    ⟨_, _, _, _, _, _, _, rfl, rfl, rfl, rfl, rfl, rfl, rfl, rfl, rfl, rfl⟩
  let run : Run protocol :=
    { role := .initiator, prologue := [], keys := {}, begun, started
      history := [.call (.send (fun _ => default) [])] }
  obtain ⟨-, reached⟩ := only_protocol_errors compiled
  obtain ⟨escapes, -, -, agreements⟩ := reached run
  have agrees :
      run.session.Agrees (.recv (fun _ => default) (List.replicate 32 0)) pair
        (List.replicate 32 0) := by
    refine .recv due (turn.trans run.role_session.symm) (by decide) parted ?_ own peer
    rw [run.protocol_session]
    exact ran
  obtain ⟨reported, refused⟩ := agreements _ _ _ usable agrees
  obtain ⟨error, failed⟩ := refused (.inr (DhFunction.hasLowOrder_of_coordinate rfl))
  obtain ⟨result, kind⟩ := reported error failed
  exact ⟨protocol, run, error, compiled, usable, counted, result, kind,
    escapes _ _ result⟩

end Run

end Noise
