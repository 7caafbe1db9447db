import Noise.Proofs.Handshake.Erasure
import Noise.Proofs.Session.Attackers
import Noise.Proofs.Session.Turns

/-!
# Keys that a role does not require

A protocol says which keys a role requires by looking at the operands of its programs.
Without checks against an active attacker these are all the keys that a session depends
on: two sessions that differ in another key return the same from every call, and stay
the same but for that key.
-/

namespace Noise

/-- The session without the key that an operand stands for. -/
def Session.without (operand : Operand) (session : Session) : Session :=
  { session with
    handshake := session.handshake.map (HandshakeState.without operand)
    peerStatic := if operand = .peer .static then none else session.peerStatic }

def Reply.without (operand : Operand) (reply : Reply) : Reply :=
  { reply with session := reply.session.without operand }

namespace Session

section Parts

variable (session : Session) (operand : Operand)

theorem fail_without (error : ProtocolError) (drewKey : Bool) :
    (session.without operand).fail error drewKey =
      (session.fail error drewKey).without operand := by
  simp only [fail, Reply.without, afterError, apply_ite (without operand)]
  rfl

theorem advance_without (outcome : Outcome) :
    (session.without operand).advance (outcome.without operand) =
      (session.advance outcome).without operand := by
  obtain ⟨message, state, ending, drewKey⟩ := outcome
  cases ending <;> rfl

theorem commit_without (maximum : Option Nat) (result : Except Stopped Outcome) :
    (session.without operand).commit maximum
      (erased operand (Outcome.without operand) result) =
      (session.commit maximum result).without operand := by
  cases result with
  | error stopped => exact fail_without ..
  | ok outcome =>
      simp only [commit, erased_ok, apply_ite (Reply.without operand)]
      rw [fail_without, advance_without]
      rfl

theorem counter_without : (session.without operand).counter = session.counter := rfl

theorem protocol_without : (session.without operand).protocol = session.protocol := rfl

theorem role_without : (session.without operand).role = session.role := rfl

theorem handshake_without :
    (session.without operand).handshake =
      session.handshake.map (HandshakeState.without operand) := rfl

theorem channel_without : (session.without operand).channel = session.channel := rfl

theorem cipher_without : (session.without operand).cipher = session.cipher := rfl

theorem withCipher_without (channel : Channel) (cipher : CipherState) :
    (session.without operand).withCipher channel cipher =
      (session.withCipher channel cipher).without operand := by
  cases channel <;> rfl

theorem commitTransport_without (channel : Channel)
    (result : Except (Halt CipherState) (Bytes × CipherState)) :
    (session.without operand).commitTransport channel result =
      (session.commitTransport channel result).without operand := by
  cases result with
  | error halt =>
      rw [commitTransport, withCipher_without]
      exact fail_without ..
  | ok pair => cases channel <;> rfl

end Parts

variable {session : Session} {operand : Operand}

/-- Whether the programs of a session leave the key of an operand alone. -/
def Spares (session : Session) (operand : Operand) : Prop :=
  ∀ step ∈ session.protocol.steps, (step.programFor session.role).isOrdinary ∧
    ∀ instruction ∈ step.programFor session.role, operand ∉ instruction.touches

theorem Spares.send (spares : session.Spares operand) (generate : KeyGenerator)
    (plaintext : Bytes) :
    (session.without operand).send generate plaintext =
      (session.send generate plaintext).without operand := by
  simp only [Session.send, apply_ite (Reply.without operand)]
  apply ite_congr rfl
  · intro _
    rfl
  intro _
  apply ite_congr rfl
  · intro _
    rw [handshake_without, protocol_without, counter_without]
    cases found : session.protocol.steps[session.counter]? with
    | none => rfl
    | some step =>
        cases session.handshake with
        | none => rfl
        | some state =>
            simp only [Option.map_some, apply_ite (Reply.without operand)]
            apply ite_congr rfl
            · intro turn
              rw [role_without] at turn
              obtain ⟨ordinary, untouched⟩ := spares step (List.mem_of_getElem? found)
              rw [Step.programFor_of_sender turn] at ordinary untouched
              rw [state.write_without ordinary untouched, commit_without]
            · intro _
              rfl
  · intro _
    rw [channel_without, cipher_without, protocol_without]
    cases session.channel .send with
    | error error => rfl
    | ok channel =>
        simp only [apply_ite (Reply.without operand)]
        apply ite_congr rfl
        · intro _
          rfl
        · intro _
          exact commitTransport_without ..

theorem Spares.recv (spares : session.Spares operand) (generate : KeyGenerator)
    (message : Bytes) :
    (session.without operand).recv generate message =
      (session.recv generate message).without operand := by
  simp only [Session.recv, apply_ite (Reply.without operand)]
  apply ite_congr rfl
  · intro _
    rfl
  intro _
  apply ite_congr rfl
  · intro _
    rfl
  intro _
  apply ite_congr rfl
  · intro _
    rw [handshake_without, protocol_without, counter_without]
    cases found : session.protocol.steps[session.counter]? with
    | none => rfl
    | some step =>
        cases session.handshake with
        | none => rfl
        | some state =>
            simp only [Option.map_some, apply_ite (Reply.without operand)]
            apply ite_congr rfl
            · intro turn
              rw [role_without] at turn
              obtain ⟨ordinary, untouched⟩ := spares step (List.mem_of_getElem? found)
              rw [Step.programFor_of_receiver turn] at ordinary untouched
              rw [state.read_without ordinary untouched, commit_without]
            · intro _
              rfl
  · intro _
    rw [channel_without, cipher_without, protocol_without]
    cases session.channel .receive with
    | error error => rfl
    | ok channel => exact commitTransport_without ..

theorem rekey_without (session : Session) (operand : Operand) (action : Action) :
    (session.without operand).rekey action =
      ((session.rekey action).map (without operand)).mapError
        (Halt.map (without operand)) := by
  cases usable : session.failed with
  | true =>
      have sameUsable : (session.without operand).failed = true := usable
      simp only [rekey, sameUsable, usable, ↓reduceIte]
      rfl
  | false =>
      have sameUsable : (session.without operand).failed = false := usable
      simp only [rekey, sameUsable, usable, Bool.false_eq_true, ↓reduceIte]
      rw [channel_without, cipher_without, protocol_without]
      cases session.channel action with
      | error error => rfl
      | ok channel =>
          simp only [haltAt, mapError_ok, ok_bind]
          cases (session.cipher channel).rekey session.protocol.suite.cipher with
          | error halt =>
              have same := withCipher_without session operand channel halt.state
              exact congrArg (fun state => Except.error (Halt.mk state halt.error)) same
          | ok cipher =>
              exact congrArg Except.ok
                (withCipher_without session operand channel cipher)

/-- A call leads to the same without a key that the programs leave alone. -/
theorem Spares.call (spares : session.Spares operand) (call : Call) :
    (session.without operand).call call = (session.call call).without operand := by
  cases call with
  | send generate plaintext => exact spares.send generate plaintext
  | recv generate message => exact spares.recv generate message
  | rekey action =>
      rw [Session.call, Session.call, rekey_without]
      cases session.rekey action <;> rfl

/-- Whether each of some calls in a row draws a key from its generator. -/
def draws (session : Session) : List Call → List Bool
  | [] => []
  | call :: rest =>
      (session.call call).drewKey :: draws (session.call call).session rest

theorem Spares.next (spares : session.Spares operand) (call : Call) :
    (session.call call).session.Spares operand := by
  have sameRole : (session.call call).session.role = session.role :=
    (moves_next session (.call call)).role_eq
  rw [Spares, protocol_call, sameRole]
  exact spares

/-- Calls lead to the same without a key that the programs leave alone, and
return the same. -/
theorem Spares.after (spares : session.Spares operand) (calls : List Call) :
    (session.without operand).after calls = (session.after calls).without operand ∧
      (session.without operand).results calls = session.results calls ∧
      (session.without operand).draws calls = session.draws calls := by
  induction calls generalizing session with
  | nil => exact ⟨rfl, rfl, rfl⟩
  | cons call rest ih =>
      obtain ⟨sameAfter, sameResults, sameDraws⟩ := ih (spares.next call)
      refine ⟨?_, ?_, ?_⟩
      · rw [Session.after, List.foldl_cons, spares.call]
        exact sameAfter
      · rw [results, results, spares.call]
        exact congrArg _ sameResults
      · rw [draws, draws, spares.call]
        exact congrArg _ sameDraws

/-! ## Sessions that differ in a key -/

section Start

variable {protocol : Protocol} {role : Role} {prologue : Bytes} {keys : Keys}

theorem not_uses_of_requires {program : Program}
    (unrequired : protocol.requires role operand = false)
    (member : program ∈ protocol.programsFor role) : ¬ program.uses operand := by
  intro used
  exact absurd used (List.any_eq_false.1 unrequired program member)

theorem spares_of_start (compiled : protocol.IsCompiled)
    (passive : protocol.attacker = .passive)
    (unrequired : protocol.requires role operand = false)
    (started : start protocol role prologue keys = .ok session) :
    session.Spares operand := by
  obtain ⟨-, handshake, -, rfl⟩ := of_start started
  intro step member
  obtain ⟨index, found⟩ := List.mem_iff_getElem?.1 member
  obtain ⟨message, -, made⟩ := compiled.exists_eq_ofMessage found
  have unused :=
    not_uses_of_requires unrequired
      (List.mem_cons_of_mem _ (List.mem_map_of_mem member))
  rw [made, passive] at unused ⊢
  exact ⟨Step.isOrdinary_programFor .., Step.untouched_programFor _ role _ unused⟩

theorem without_masked (keys : Keys) (operand : Operand) (hasPsk : Bool) :
    ({ keys with psk := if hasPsk then keys.psk else none } : Keys).without operand =
      { keys.without operand with
        psk := if hasPsk then (keys.without operand).psk else none } := by
  cases hasPsk <;> simp [Keys.without]

/-- A session without a key that it does not require is determined by the other keys. -/
theorem without_of_start (compiled : protocol.IsCompiled)
    (unrequired : protocol.requires role operand = false)
    (started : start protocol role prologue keys = .ok session) :
    ∃ handshake,
      HandshakeState.start protocol role prologue
        { keys.without operand with
          psk := if protocol.hasPsk then (keys.without operand).psk else none } =
            .ok handshake ∧
      session.without operand =
        { protocol, role, handshake := some handshake,
          peerStatic := handshake.rs } := by
  obtain ⟨-, handshake, begun, rfl⟩ := of_start started
  have unused := not_uses_of_requires unrequired (List.mem_cons_self ..)
  refine ⟨handshake.without operand, ?_, rfl⟩
  rw [← without_masked,
    HandshakeState.start_without compiled.initialization_eq unused, begun]
  rfl

end Start

/-- Sessions that are the same but for a key are the same in everything else. -/
theorem same_of_without {other : Session}
    (same : session.without operand = other.without operand) :
    session.counter = other.counter ∧ session.handshakeHash = other.handshakeHash ∧
      session.cipherA = other.cipherA ∧ session.cipherB = other.cipherB ∧
      session.handshake.map (·.symmetric) = other.handshake.map (·.symmetric) := by
  have counter := congrArg Session.counter same
  have hash := congrArg Session.handshakeHash same
  have cipherA := congrArg Session.cipherA same
  have cipherB := congrArg Session.cipherB same
  have transcript := congrArg (fun session => session.handshake.map (·.symmetric)) same
  simp only [handshake_without, Option.map_map] at transcript
  exact ⟨counter, hash, cipherA, cipherB, transcript⟩

/-- Keys that a role does not require have no influence on it.  Without checks against
an active attacker, take two sessions of a role that were started with the same keys but
for one that the role does not require.  Then from all calls they return the same bytes
or errors, they ask for keys in the same calls, and they end up with the same counter,
handshake hash, transport ciphers and transcript. -/
theorem unrequired_keys_have_no_influence {draft : Draft} {suite : Suite}
    {protocol : Protocol} {role : Role} {operand : Operand} {prologue : Bytes}
    {keys others : Keys} {own other : Session}
    (compiled : Protocol.compile draft suite .passive = .ok protocol)
    (unrequired : protocol.requires role operand = false)
    (same : keys.without operand = others.without operand)
    (started : start protocol role prologue keys = .ok own)
    (otherStarted : start protocol role prologue others = .ok other)
    (calls : List Call) :
    own.results calls = other.results calls ∧
    own.draws calls = other.draws calls ∧
    (own.after calls).counter = (other.after calls).counter ∧
    (own.after calls).handshakeHash = (other.after calls).handshakeHash ∧
    (own.after calls).cipherA = (other.after calls).cipherA ∧
    (own.after calls).cipherB = (other.after calls).cipherB ∧
    (own.after calls).handshake.map (·.symmetric) =
      (other.after calls).handshake.map (·.symmetric) := by
  obtain ⟨wellFormed, -, passive⟩ := Protocol.isCompiled_of_compile compiled
  obtain ⟨handshake, begun, left⟩ := without_of_start wellFormed unrequired started
  obtain ⟨otherHandshake, otherBegun, otherLeft⟩ :=
    without_of_start wellFormed unrequired otherStarted
  rw [← same, begun] at otherBegun
  obtain rfl := Except.ok.inj otherBegun
  obtain ⟨after, results, draws⟩ :=
    (spares_of_start wellFormed passive unrequired started).after calls
  obtain ⟨otherAfter, otherResults, otherDraws⟩ :=
    (spares_of_start wellFormed passive unrequired otherStarted).after calls
  rw [left] at after results draws
  rw [otherLeft] at otherAfter otherResults otherDraws
  have sameAfter := after.symm.trans otherAfter
  exact ⟨results.symm.trans otherResults, draws.symm.trans otherDraws,
    same_of_without sameAfter⟩

open Catalog in
/-- Two initiators hold different shared secrets, as the pattern has the token, but the
handshake ends before it. -/
theorem unrequired_keys_have_no_influence_of_gap :
    ∃ protocol own other,
      Protocol.compile (entry "Gap" []
        [Catalog.send [e], Catalog.send [], Catalog.recv [e, ee, psk]]).toDraft
        {} .passive = .ok protocol ∧
      protocol.hasPsk = true ∧ protocol.requires .initiator .psk = false ∧
      start protocol .initiator [] { psk := some (List.replicate 32 1) } = .ok own ∧
      start protocol .initiator [] { psk := some (List.replicate 32 2) } = .ok other ∧
      own.handshake.bind (·.psk) ≠ other.handshake.bind (·.psk) ∧
      let calls :=
        [.recv (fun _ => default) [], .send (fun _ => default) [7],
          .send (fun _ => default) [8]]
      own.results calls = other.results calls ∧
      (own.after calls).handshakeHash = (other.after calls).handshakeHash ∧
      (own.after calls).cipherA = (other.after calls).cipherA := by
  obtain ⟨protocol, own, other, compiled, hasPsk, unrequired, started, otherStarted,
      held, otherHeld⟩ :
      ∃ protocol own other,
        Protocol.compile (entry "Gap" []
          [Catalog.send [e], Catalog.send [], Catalog.recv [e, ee, psk]]).toDraft
          {} .passive = .ok protocol ∧
        protocol.hasPsk = true ∧ protocol.requires .initiator .psk = false ∧
        start protocol .initiator [] { psk := some (List.replicate 32 1) } = .ok own ∧
        start protocol .initiator [] { psk := some (List.replicate 32 2) } = .ok other ∧
        own.handshake.bind (·.psk) = some (List.replicate 32 1) ∧
        other.handshake.bind (·.psk) = some (List.replicate 32 2) :=
    ⟨_, _, _, rfl, rfl, rfl, rfl, rfl, rfl, rfl⟩
  have same : ({ psk := some (List.replicate 32 1) } : Keys).without .psk =
      ({ psk := some (List.replicate 32 2) } : Keys).without .psk := rfl
  obtain ⟨results, -, -, hash, cipher, -⟩ :=
    unrequired_keys_have_no_influence compiled unrequired same started otherStarted
      [.recv (fun _ => default) [], .send (fun _ => default) [7],
        .send (fun _ => default) [8]]
  refine ⟨protocol, own, other, compiled, hasPsk, unrequired, started, otherStarted, ?_,
    results, hash, cipher⟩
  rw [held, otherHeld]
  decide

end Session

end Noise
