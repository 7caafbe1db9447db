import Noise.Proofs.Session.Histories
import Noise.Proofs.Session.Transport

/-!
# The phases of a session

A session is in its handshake, in its transport phase, or abandoned.  What it holds is
determined by that: which of its parts are there, and how long they are.  Every event
keeps a session in one of the phases, and none changes a handshake hash.
-/

namespace Noise

/-- Whether a channel is used after the handshake. -/
def Protocol.usesChannel (protocol : Protocol) : Channel → Bool
  | .a => true
  | .b => !protocol.isOneWay

namespace Session

variable {session : Session} {channel : Channel} {cipher : CipherState}

structure InHandshake (session : Session) : Prop where
  usable : session.failed = false
  going : ∃ state, session.handshake = some state ∧
    state.WellFormed session.protocol.suite
  early : session.counter ≤ session.protocol.finalIndex
  unhashed : session.handshakeHash = none
  empty : ∀ channel, session.cipher channel = {}

structure InTransport (session : Session) : Prop where
  usable : session.failed = false
  ended : session.handshake = none
  late : session.protocol.finalIndex < session.counter
  hashed : ∃ hash, session.handshakeHash = some hash ∧
    hash.length = session.protocol.suite.hash.length
  wellFormed : ∀ channel, (session.cipher channel).WellFormed
  hasKey : ∀ channel,
    (session.cipher channel).hasKey = session.protocol.usesChannel channel

structure Abandoned (session : Session) : Prop where
  failed : session.failed = true
  ended : session.handshake = none
  length_hash : ∀ hash ∈ session.handshakeHash,
    hash.length = session.protocol.suite.hash.length
  empty : ∀ channel, session.cipher channel = {}

inductive Phase (session : Session) : Prop where
  | handshake : session.InHandshake → Phase session
  | transport : session.InTransport → Phase session
  | abandoned : session.Abandoned → Phase session

theorem inHandshake_of_start {protocol : Protocol} {role : Role} {prologue : Bytes}
    {keys : Keys} (started : start protocol role prologue keys = .ok session) :
    session.InHandshake := by
  obtain ⟨-, handshake, begun, rfl⟩ := of_start started
  constructor
  · rfl
  · exact ⟨handshake, rfl, HandshakeState.wellFormed_of_start begun⟩
  · exact Nat.zero_le _
  · rfl
  · intro channel
    cases channel <;> rfl

/-! ## What an event does to a phase -/

theorem Phase.length_hash (phase : session.Phase) :
    ∀ hash ∈ session.handshakeHash,
      hash.length = session.protocol.suite.hash.length := by
  intro hash held
  cases phase with
  | handshake inside => cases inside.unhashed.symm.trans held
  | transport inside =>
      obtain ⟨known, hashed, length⟩ := inside.hashed
      obtain rfl := Option.some.inj (hashed.symm.trans held)
      exact length
  | abandoned gone => exact gone.length_hash hash held

theorem Phase.clear (phase : session.Phase) : session.clear.Abandoned := by
  constructor
  · rfl
  · rfl
  · exact phase.length_hash
  · intro channel
    cases channel <;> rfl

/-- The final message leads to the transport phase, and every other message
to the next one. -/
theorem InHandshake.exchange {call : Call} {passage : Passage} {outcome : Outcome}
    (inside : session.InHandshake) (compiled : session.protocol.IsCompiled)
    (exchanges : session.Exchanges call passage outcome) :
    (session.advance outcome).Phase := by
  obtain ⟨state, held, sound⟩ := inside.going
  have wellFormed : outcome.state.WellFormed session.protocol.suite ∧
      ∀ ending ∈ outcome.ending, ending.WellFormed session.protocol.suite := by
    apply exchanges.wellFormed
    intro going goes
    obtain rfl := Option.some.inj (held.symm.trans goes)
    exact sound
  rcases exchanges.ends_or_goes_on compiled held with ⟨final, ends⟩ | ⟨early, ends, -⟩
  · have left := wellFormed.2 _ ends
    apply Phase.transport
    rw [advance, ends]
    constructor
    · exact inside.usable
    · rfl
    · exact Nat.lt_succ_of_le (Nat.le_of_eq final.symm)
    · exact ⟨_, rfl, left.length_handshakeHash⟩
    · intro channel
      cases channel with
      | a => exact left.first
      | b =>
          simp only [Session.cipher]
          split
          · exact CipherState.wellFormed_empty
          · exact left.second
    · intro channel
      cases channel with
      | a => exact left.hasKey_first
      | b =>
          simp only [Session.cipher, Protocol.usesChannel]
          cases session.protocol.isOneWay with
          | true => rfl
          | false => exact left.hasKey_second
  · apply Phase.handshake
    rw [advance, ends]
    constructor
    · exact inside.usable
    · exact ⟨outcome.state, rfl, wellFormed.1⟩
    · exact Nat.succ_le_of_lt early
    · exact inside.unhashed
    · exact inside.empty

theorem InTransport.moved (inside : session.InTransport)
    (wellFormed : cipher.WellFormed ∧ cipher.hasKey = (session.cipher channel).hasKey)
    (count : Nat) :
    (session.moved channel cipher count).InTransport := by
  have same : (session.moved channel cipher count).protocol = session.protocol :=
    protocol_withCipher _
  have sameHash : (session.moved channel cipher count).handshakeHash =
      session.handshakeHash := by
    cases channel <;> rfl
  constructor
  · cases channel <;> exact inside.usable
  · cases channel <;> exact inside.ended
  · rw [same]
    exact Nat.lt_add_right count inside.late
  · rw [same, sameHash]
    exact inside.hashed
  · intro other
    by_cases touched : other = channel
    · rw [touched, cipher_moved_self]
      exact wellFormed.1
    · rw [cipher_moved_of_ne touched]
      exact inside.wellFormed other
  · intro other
    rw [same]
    by_cases touched : other = channel
    · rw [touched, cipher_moved_self, wellFormed.2]
      exact inside.hasKey channel
    · rw [cipher_moved_of_ne touched]
      exact inside.hasKey other

theorem isComplete_of_channel {action : Action}
    (chosen : session.channel action = .ok channel) :
    session.isComplete := by
  cases complete : session.isComplete with
  | true => rfl
  | false => simp [Session.channel, complete] at chosen

/-- The transport ciphers are used in the transport phase only. -/
theorem Phase.inTransport (phase : session.Phase) (usable : session.failed = false)
    (complete : session.isComplete) : session.InTransport := by
  cases phase with
  | handshake inside => simp [isComplete, inside.unhashed] at complete
  | transport inside => exact inside
  | abandoned gone => cases usable.symm.trans gone.failed

theorem Phase.inHandshake (phase : session.Phase) (usable : session.failed = false)
    (early : session.counter ≤ session.protocol.finalIndex) : session.InHandshake := by
  cases phase with
  | handshake inside => exact inside
  | transport inside => exact absurd inside.late (Nat.not_lt.2 early)
  | abandoned gone => cases usable.symm.trans gone.failed

theorem Phase.inTransport_of_late (phase : session.Phase)
    (usable : session.failed = false)
    (late : session.protocol.finalIndex < session.counter) : session.InTransport := by
  cases phase with
  | handshake inside => exact absurd inside.early (Nat.not_le.2 late)
  | transport inside => exact inside
  | abandoned gone => cases usable.symm.trans gone.failed

/-- Every event leads from a phase to a phase. -/
theorem Phase.moves {passage : Option Passage} {after : Session} (phase : session.Phase)
    (compiled : session.protocol.IsCompiled) (moves : session.Moves passage after) :
    after.Phase := by
  cases moves with
  | stays => exact phase
  | cleared => exact .abandoned phase.clear
  | exchanged usable exchanges =>
      have early := (exchanges.carries compiled).1
      exact (phase.inHandshake usable early).exchange compiled exchanges
  | transported usable late transports =>
      have inside := phase.inTransport_of_late usable late
      exact .transport (inside.moved (transports.wellFormed (inside.wellFormed _)) 1)
  | rekeyed usable chosen replaced =>
      have inside := phase.inTransport usable (isComplete_of_channel chosen)
      rw [← moved_zero]
      exact .transport (inside.moved ((inside.wellFormed _).rekey replaced) 0)

/-- A handshake hash stays. -/
theorem Phase.hash_of_moves {passage : Option Passage} {after : Session} {hash : Bytes}
    (phase : session.Phase) (compiled : session.protocol.IsCompiled)
    (moves : session.Moves passage after) (hashed : session.handshakeHash = some hash) :
    after.handshakeHash = some hash := by
  cases moves with
  | stays | cleared => exact hashed
  | exchanged usable exchanges =>
      have inside := phase.inHandshake usable (exchanges.carries compiled).1
      cases inside.unhashed.symm.trans hashed
  | @transported _ channel => cases channel <;> exact hashed
  | @rekeyed _ channel => cases channel <;> exact hashed

theorem Phase.follow (phase : session.Phase) (compiled : session.protocol.IsCompiled)
    (history : List Event) : (session.follow history).Phase := by
  induction history generalizing session with
  | nil => exact phase
  | cons event rest ih =>
      have moves := moves_next session event
      apply ih (phase.moves compiled moves)
      rw [moves.protocol_eq]
      exact compiled

theorem Phase.hash_follow {hash : Bytes} (phase : session.Phase)
    (compiled : session.protocol.IsCompiled)
    (hashed : session.handshakeHash = some hash) (history : List Event) :
    (session.follow history).handshakeHash = some hash := by
  induction history generalizing session with
  | nil => exact hashed
  | cons event rest ih =>
      have moves := moves_next session event
      apply ih (phase.moves compiled moves)
      · rw [moves.protocol_eq]
        exact compiled
      · exact phase.hash_of_moves compiled moves hashed

/-! ## What a phase says about the parts of a session -/

/-- The parts of a session that is not abandoned come and go together. -/
theorem Phase.parts (phase : session.Phase) (usable : session.failed = false) :
    (session.handshake.isSome ↔ session.counter ≤ session.protocol.finalIndex) ∧
      (session.handshake.isSome ↔ session.handshakeHash = none) ∧
      (session.handshake.isSome ↔ session.cipherA.key = none) ∧
      (session.cipherB.key.isSome ↔ session.handshakeHash.isSome ∧
        session.protocol.isOneWay = false) := by
  cases phase with
  | handshake inside =>
      obtain ⟨state, going, -⟩ := inside.going
      have emptyA : session.cipherA = {} := inside.empty .a
      have emptyB : session.cipherB = {} := inside.empty .b
      simp [going, inside.early, inside.unhashed, emptyA, emptyB]
  | transport inside =>
      obtain ⟨hash, hashed, -⟩ := inside.hashed
      have keyA : session.cipherA.key.isSome = true := inside.hasKey .a
      have keyB : session.cipherB.key.isSome = !session.protocol.isOneWay :=
        inside.hasKey .b
      have noKeyA : session.cipherA.key ≠ none := Option.isSome_iff_ne_none.1 keyA
      simp [inside.ended, Nat.not_le.2 inside.late, hashed, noKeyA, keyB]
  | abandoned gone => cases usable.symm.trans gone.failed

theorem Phase.abandoned_of_failed (phase : session.Phase)
    (failed : session.failed = true) :
    session.Abandoned := by
  cases phase with
  | handshake inside => cases inside.usable.symm.trans failed
  | transport inside => cases inside.usable.symm.trans failed
  | abandoned gone => exact gone

theorem Phase.wellFormed (phase : session.Phase) :
    ∀ channel, (session.cipher channel).WellFormed := by
  intro channel
  cases phase with
  | handshake inside =>
      rw [inside.empty]
      exact CipherState.wellFormed_empty
  | transport inside => exact inside.wellFormed channel
  | abandoned gone =>
      rw [gone.empty]
      exact CipherState.wellFormed_empty

theorem Phase.wellFormed_handshake (phase : session.Phase) :
    ∀ state ∈ session.handshake, state.WellFormed session.protocol.suite := by
  intro state held
  cases phase with
  | handshake inside =>
      obtain ⟨going, goes, sound⟩ := inside.going
      obtain rfl := Option.some.inj (goes.symm.trans held)
      exact sound
  | transport inside => cases inside.ended.symm.trans held
  | abandoned gone => cases gone.ended.symm.trans held

end Session

/-! ## Every session that can be reached -/

namespace Run

variable {protocol : Protocol}

theorem isCompiled_session (compiled : protocol.IsCompiled) (run : Run protocol) :
    run.session.protocol.IsCompiled := by
  rw [run.protocol_session]
  exact compiled

theorem phase (run : Run protocol) (compiled : protocol.IsCompiled) :
    run.session.Phase := by
  apply Session.Phase.follow
  · exact .handshake (Session.inHandshake_of_start run.started)
  · rw [run.protocol_begun]
    exact compiled

/-- The parts of a session always fit together.  After any history, the counter is the
number of messages that were sent and received; a session that has not failed has its
handshake state, or its hash and its ciphers, as its counter says; a session that has
failed has no secret left; a handshake hash stays what it is; and hashes and keys have
the lengths of the suite. -/
theorem sessions_are_consistent {draft : Draft} {suite : Suite}
    {attacker : AttackerModel} {protocol : Protocol}
    (compiled : Protocol.compile draft suite attacker = .ok protocol)
    (run : Run protocol) :
    run.session.counter = run.wire.length ∧
    (run.session.failed = false →
      (run.session.handshake.isSome ↔ run.session.counter ≤ protocol.finalIndex) ∧
      (run.session.handshake.isSome ↔ run.session.handshakeHash = none) ∧
      (run.session.handshake.isSome ↔ run.session.cipherA.key = none) ∧
      (run.session.cipherB.key.isSome ↔
        run.session.handshakeHash.isSome ∧ protocol.isOneWay = false)) ∧
    (run.session.failed = true →
      run.session.handshake = none ∧ run.session.cipherA.key = none ∧
      run.session.cipherB.key = none) ∧
    (∀ hash, run.session.handshakeHash = some hash →
      hash.length = suite.hash.length ∧
      ∀ later, (run.session.follow later).handshakeHash = some hash) ∧
    (∀ channel, ∀ key ∈ (run.session.cipher channel).key, key.length = 32) ∧
    ∀ state, run.session.handshake = some state →
      (∀ key ∈ state.symmetric.cipher.key, key.length = 32) ∧
      state.symmetric.h.length = suite.hash.length ∧
      state.symmetric.ck.length = suite.hash.length := by
  obtain ⟨wellFormed, rfl, -⟩ := Protocol.isCompiled_of_compile compiled
  have phase := run.phase wellFormed
  have same := run.protocol_session
  have stillCompiled : run.session.protocol.IsCompiled := by
    rw [same]
    exact wellFormed
  constructor
  · exact run.counter_session
  constructor
  · intro usable
    have parts := phase.parts usable
    rw [same] at parts
    exact parts
  constructor
  · intro failed
    have gone := phase.abandoned_of_failed failed
    have emptyA : run.session.cipherA = {} := gone.empty .a
    have emptyB : run.session.cipherB = {} := gone.empty .b
    rw [emptyA, emptyB]
    exact ⟨gone.ended, rfl, rfl⟩
  constructor
  · intro hash hashed
    constructor
    · rw [phase.length_hash hash hashed, same]
    · intro later
      exact phase.hash_follow stillCompiled hashed later
  constructor
  · intro channel
    exact (phase.wellFormed channel).length_key
  · intro state held
    have sound := phase.wellFormed_handshake state held
    rw [same] at sound
    exact ⟨sound.cipher.length_key, sound.length_h, sound.length_ck⟩

open Catalog in
/-- A responder has read the first message, then was asked for a new key too early, and
is left without a key but with its handshake. -/
theorem sessions_are_consistent_of_NN :
    ∃ protocol, ∃ run : Run protocol,
      Protocol.compile (entry "NN" [] [Catalog.send [e], Catalog.recv [e, ee]]).toDraft
        {} .active = .ok protocol ∧
      run.wire = [List.replicate 40 7] ∧ run.session.failed = false ∧
      run.session.counter = 1 ∧ run.session.cipherA.key = none ∧
      run.session.handshake.isSome := by
  obtain ⟨protocol, begun, compiled, started, final, wire, usable⟩ :
      ∃ protocol begun,
        Protocol.compile (entry "NN" []
          [Catalog.send [e], Catalog.recv [e, ee]]).toDraft {} .active = .ok protocol ∧
        Session.start protocol .responder [] {} = .ok begun ∧ protocol.finalIndex = 1 ∧
        (begun.passages [.call (.recv (fun _ => default) (List.replicate 40 7)),
          .call (.rekey .send)]).map (·.wire) = [List.replicate 40 7] ∧
        (begun.follow [.call (.recv (fun _ => default) (List.replicate 40 7)),
          .call (.rekey .send)]).failed = false :=
    ⟨_, _, rfl, rfl, rfl, rfl, rfl⟩
  let run : Run protocol :=
    { role := .responder, prologue := [], keys := {}, begun, started
      history :=
        [.call (.recv (fun _ => default) (List.replicate 40 7)), .call (.rekey .send)] }
  obtain ⟨counted, parts, -⟩ := sessions_are_consistent compiled run
  have one : run.session.counter = 1 := counted.trans (congrArg List.length wire)
  obtain ⟨going, -, keyless, -⟩ := parts usable
  have held := going.2 (by rw [one, final])
  exact ⟨protocol, run, compiled, wire, usable, one, keyless.1 held, held⟩

end Run

end Noise
