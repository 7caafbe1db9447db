import Noise.Proofs.Handshake.Agreement
import Noise.Proofs.Session.Calls

/-!
# Two sessions of one handshake agree

Two sessions that were started with the same prologue and the same shared secret, and
that were told the truth about each other's keys, stay together through the whole
handshake, whatever its pattern: what one of them sends the other understands, and they
end with the same hash and the same transport ciphers.
-/

namespace Noise

open HandshakeState (Alike)

/-- What compiled programs do with a message: the reader understands what the
writer wrote. -/
theorem HandshakeState.Alike.read_of_write {suite : Suite} {place : Place}
    {message : Message} {senderGenerate : KeyGenerator}
    (receiverGenerate : KeyGenerator) {senderGiven receiverGiven : Keys}
    {sender receiver : HandshakeState} {payload : Bytes} {outcome : Outcome}
    (alike : Alike suite.dh senderGiven receiverGiven sender receiver)
    (keyed : receiver.symmetric.hasKey = place.isKeyed)
    (written : sender.write suite senderGenerate
      (Step.ofMessage suite .passive place message).write payload = .ok outcome) :
    outcome.ending.isSome = place.isFinal ∧
      match receiver.read suite receiverGenerate
        (Step.ofMessage suite .passive place message).read outcome.message with
      | .ok received =>
          received.message = payload ∧ received.ending = outcome.ending ∧
            Alike suite.dh senderGiven receiverGiven outcome.state received.state
      | .error stopped => stopped.error = .notSet (.peer .static) ∧
          receiverGiven.rs = none := by
  have wrote :=
    Interpreter.write_ofMessage suite .passive place message senderGenerate
      sender payload
  rw [written] at wrote
  have reads : _ = Interpreter.read
      (Interpreter.passive suite place.hasPsk message.direction.sender.other
        receiverGenerate) _ _ _ _ :=
    Interpreter.read_ofMessage suite .passive place message receiverGenerate receiver
      keyed outcome.message
  obtain ⟨ends, reading⟩ :=
    Interpreter.read_of_write suite place.hasPsk message.direction.sender
      senderGenerate receiverGenerate alike wrote.symm
  refine ⟨ends, ?_⟩
  rw [← reads] at reading
  cases ran :
    receiver.read suite receiverGenerate
      (Step.ofMessage suite .passive place message).read outcome.message with
  | error stopped =>
      rw [ran] at reading
      exact reading
  | ok received =>
      rw [ran] at reading
      exact reading

/-! ## The start -/

/-- The keys that two parties are given, where each is told the truth about the other:
its ephemeral key if it has one, and its static key or nothing. -/
structure Introduced (keys : Role → Keys) : Prop where
  psk : ∀ role, (keys role).psk = (keys role.other).psk
  ephemeral : ∀ role, (keys role).re = (keys role.other).e.map (·.publicKey)
  static : ∀ role, ∀ key ∈ (keys role).rs,
    (keys role.other).s.map (·.publicKey) = some key

/-- Parties that were introduced know each other, whatever shared secret they use. -/
theorem Introduced.knows {keys : Role → Keys} (introduced : Introduced keys)
    {dh : DhFunction} {role : Role}
    (ofFunction : ∀ kind, ∀ pair ∈ (keys role).own kind, pair.dh = dh)
    (psk otherPsk : Option Bytes) :
    Keys.Knows dh (keys role) { keys role with psk }
      { keys role.other with psk := otherPsk } where
  ofFunction := fun kind =>
    match kind with
    | .ephemeral => ofFunction .ephemeral
    | .static => ofFunction .static
  ephemeral := introduced.ephemeral role
  static := introduced.static role
  keepsOwn := rfl
  keepsPeer := id

/-- What both of two functions tell of the same elements agrees if it agrees
for each element. -/
theorem eq_of_map_ok {α ε β : Type} {elements : List α} {first second : α → Except ε β}
    {values others : List β} (told : elements.map first = values.map .ok)
    (toldOther : elements.map second = others.map .ok)
    (same : ∀ element value other, first element = .ok value →
      second element = .ok other → value = other) :
    values = others := by
  induction elements generalizing values others with
  | nil => simp_all
  | cons element rest ih =>
      cases values with
      | nil => simp at told
      | cons value values =>
          cases others with
          | nil => simp at toldOther
          | cons other others =>
              simp only [List.map_cons, List.cons.injEq] at told toldOther
              rw [same element value other told.1 toldOther.1, ih told.2 toldOther.2]

/-- An announced key is the same for the party whose key it is and for the other. -/
theorem announced_alike {own peer : Machine} {dh : DhFunction} {given : Keys}
    {kind : KeyKind} {bytes peerBytes : Bytes}
    (knows : Keys.Knows dh given peer.state.toKeys own.state.toKeys)
    (known : own.value (.own kind) = .ok bytes)
    (peerKnown : peer.value (.peer kind) = .ok peerBytes) :
    bytes = peerBytes := by
  obtain ⟨pair, held, rfl⟩ := Machine.value_own.1 known
  obtain ⟨other, alsoHeld, rfl⟩ := knows.exists_pair (Machine.value_peer.1 peerKnown)
  rw [held, Option.some.injEq] at alsoHeld
  rw [alsoHeld]

/-- Both parties hash the same values at the start. -/
theorem Pattern.hashedAtStart_alike {pattern : Pattern} {role : Role}
    {own peer : Machine} {dh : DhFunction} {ownGiven peerGiven : Keys}
    {values peerValues : List Bytes}
    (known : (pattern.hashedAtStart role).map own.value = values.map .ok)
    (peerKnown : (pattern.hashedAtStart role.other).map peer.value = peerValues.map .ok)
    (ownKnows : Keys.Knows dh ownGiven own.state.toKeys peer.state.toKeys)
    (peerKnows : Keys.Knows dh peerGiven peer.state.toKeys own.state.toKeys)
    (samePrologue : own.frame.prologue = peer.frame.prologue) :
    values = peerValues := by
  simp only [hashedAtStart, List.map_cons, List.map_map] at known peerKnown
  cases values with
  | nil => simp at known
  | cons value values =>
      cases peerValues with
      | nil => simp at peerKnown
      | cons peerValue peerValues =>
          simp only [List.map_cons, List.cons.injEq] at known peerKnown
          have first : value = peerValue := by
            have ownFirst : own.frame.prologue = value := Except.ok.inj known.1
            have peerFirst : peer.frame.prologue = peerValue :=
              Except.ok.inj peerKnown.1
            rw [← ownFirst, ← peerFirst, samePrologue]
          rw [first, eq_of_map_ok known.2 peerKnown.2 ?_]
          rintro ⟨party, kind⟩ bytes peerBytes ownBytes otherBytes
          have distinct := role.other_ne
          rcases party.eq_or_eq_other role with rfl | rfl
          · simp only [Function.comp_apply, ↓reduceIte,
              distinct.symm] at ownBytes otherBytes
            exact announced_alike peerKnows ownBytes otherBytes
          · simp only [Function.comp_apply, ↓reduceIte, distinct] at ownBytes otherBytes
            exact (announced_alike ownKnows otherBytes ownBytes).symm

namespace Session

variable {protocol : Protocol} {role : Role} {prologue : Bytes}

/-- The keys that a handshake starts with are those given, without a shared
secret that is not used. -/
theorem alike_of_start {keys : Role → Keys} {own peer : Session}
    (compiled : protocol.IsCompiled) (introduced : Introduced keys)
    (started : start protocol role prologue (keys role) = .ok own)
    (peerStarted : start protocol role.other prologue (keys role.other) = .ok peer) :
    ∃ left right, own =
      { protocol, role, handshake := some left, peerStatic := left.rs } ∧
      peer =
        { protocol, role := role.other, handshake := some right,
          peerStatic := right.rs } ∧
      Alike protocol.suite.dh (keys role) (keys role.other) left right ∧
      left.symmetric.hasKey = false := by
  obtain ⟨ofFunction, left, begun, rfl⟩ := of_start started
  obtain ⟨peerOfFunction, right, peerBegun, rfl⟩ := of_start peerStarted
  obtain ⟨values, known, rfl⟩ :=
    HandshakeState.of_start compiled.initialization_eq begun
  obtain ⟨peerValues, peerKnown, rfl⟩ :=
    HandshakeState.of_start compiled.initialization_eq peerBegun
  have knows :=
    introduced.knows ofFunction (if protocol.hasPsk then (keys role).psk else none)
      (if protocol.hasPsk then (keys role.other).psk else none)
  have peerKnows := introduced.knows peerOfFunction
    (if protocol.hasPsk then (keys role.other).psk else none)
    (if protocol.hasPsk then (keys role).psk else none)
  rw [Role.other_other] at peerKnows
  refine ⟨_, _, rfl, rfl, ⟨knows, peerKnows, ?_, ?_⟩, ?_⟩
  · simp only [introduced.psk role]
  · rw [Pattern.hashedAtStart_alike known peerKnown knows peerKnows rfl]
  · exact HandshakeState.hasKey_foldl_mixHash _ _ _

/-! ## The course of a handshake -/

/-- Whatever static key of the other party the session knows, it is the one
among those keys. -/
def KnowsStaticOf (session : Session) (keys : Keys) : Prop :=
  ∀ key, session.remoteStatic = some key → keys.s.map (·.publicKey) = some key

/-- Two sessions at the same place of one handshake. -/
structure Facing (protocol : Protocol) (keys : Role → Keys) (own peer : Session) :
    Prop where
  protocol_eq : own.protocol = protocol
  peerProtocol_eq : peer.protocol = protocol
  role_eq : peer.role = own.role.other
  usable : own.failed = false
  peerUsable : peer.failed = false
  counter_eq : own.counter = peer.counter
  goesOn : own.counter ≤ protocol.finalIndex →
    ∃ left right, own.handshake = some left ∧ peer.handshake = some right ∧
      Alike protocol.suite.dh (keys own.role) (keys peer.role) left right ∧
      left.symmetric.hasKey = protocol.analysis.isKeyedBefore own.counter
  hasEnded : protocol.finalIndex < own.counter →
    own.isComplete ∧ own.handshakeHash = peer.handshakeHash ∧
    own.cipherA = peer.cipherA ∧
      own.cipherB = peer.cipherB ∧ own.KnowsStaticOf (keys peer.role) ∧
      peer.KnowsStaticOf (keys own.role)

namespace Facing

variable {keys : Role → Keys} {own peer : Session}

theorem symm (facing : Facing protocol keys own peer) :
    Facing protocol keys peer own where
  protocol_eq := facing.peerProtocol_eq
  peerProtocol_eq := facing.protocol_eq
  role_eq := by rw [facing.role_eq, Role.other_other]
  usable := facing.peerUsable
  peerUsable := facing.usable
  counter_eq := facing.counter_eq.symm
  goesOn := by
    intro early
    rw [← facing.counter_eq] at early ⊢
    obtain ⟨left, right, going, peerGoing, alike, keyed⟩ := facing.goesOn early
    exact ⟨right, left, peerGoing, going, alike.symm, by rw [← alike.symmetric, keyed]⟩
  hasEnded := by
    intro late
    rw [← facing.counter_eq] at late
    obtain ⟨complete, sameHash, sameA, sameB, knows, peerKnows⟩ := facing.hasEnded late
    refine ⟨?_, sameHash.symm, sameA.symm, sameB.symm, peerKnows, knows⟩
    rwa [isComplete, ← sameHash]

/-- Parties that were introduced start facing each other. -/
theorem start (compiled : protocol.IsCompiled) (introduced : Introduced keys)
    (started : Session.start protocol role prologue (keys role) = .ok own)
    (peerStarted : Session.start protocol role.other prologue (keys role.other) =
      .ok peer) :
    Facing protocol keys own peer := by
  obtain ⟨left, right, rfl, rfl, alike, keyless⟩ :=
    alike_of_start compiled introduced started peerStarted
  refine ⟨rfl, rfl, rfl, rfl, rfl, rfl, ?_, ?_⟩
  · intro early
    refine ⟨left, right, rfl, rfl, alike, ?_⟩
    rw [keyless, compiled.analysis_eq, Analysis.isKeyedBefore_ofMessages]
    rfl
  · intro late
    simp at late

/-- Two outcomes of one message take sessions that face each other to the next place. -/
theorem advance (facing : Facing protocol keys own peer)
    (early : own.counter ≤ protocol.finalIndex) {outcome received : Outcome}
    (ends : outcome.ending.isSome = (own.counter == protocol.finalIndex))
    (sameEnding : received.ending = outcome.ending)
    (alike : Alike protocol.suite.dh (keys own.role)
      (keys peer.role) outcome.state received.state)
    (keyed : own.counter < protocol.finalIndex →
      outcome.state.symmetric.hasKey =
        protocol.analysis.isKeyedBefore (own.counter + 1)) :
    Facing protocol keys (own.advance outcome) (peer.advance received) := by
  obtain ⟨sameProtocol, samePeerProtocol, opposite, usable, peerUsable, sameCounter, -,
      -⟩ := facing
  cases atEnd : outcome.ending with
  | none =>
      rw [atEnd] at sameEnding ends
      have before : own.counter < protocol.finalIndex := by
        simp at ends
        omega
      simp only [Session.advance, atEnd, sameEnding]
      refine ⟨sameProtocol, samePeerProtocol, opposite, usable, peerUsable,
        congrArg (· + 1) sameCounter, ?_, ?_⟩
      · intro _
        exact ⟨outcome.state, received.state, rfl, rfl, alike, keyed before⟩
      · intro (late : protocol.finalIndex < own.counter + 1)
        omega
  | some ending =>
      rw [atEnd] at sameEnding ends
      have final : own.counter = protocol.finalIndex := by simpa using ends
      simp only [Session.advance, atEnd, sameEnding]
      refine ⟨sameProtocol, samePeerProtocol, opposite, usable, peerUsable,
        congrArg (· + 1) sameCounter, ?_, ?_⟩
      · intro (early : own.counter + 1 ≤ protocol.finalIndex)
        omega
      · intro _
        refine ⟨rfl, rfl, rfl, by rw [sameProtocol, samePeerProtocol], ?_, ?_⟩
        · intro key (learned : outcome.state.rs = some key)
          rw [← alike.rightKnows.keepsOwn]
          exact alike.leftKnows.static key learned
        · intro key (learned : received.state.rs = some key)
          rw [← alike.leftKnows.keepsOwn]
          exact alike.rightKnows.static key learned

/-- A message that is sent in the handshake is understood, and leaves the sessions
facing each other, or it needs a static key that the receiver was not given. -/
theorem exchange (compiled : protocol.IsCompiled)
    (passive : protocol.attacker = .passive) (facing : Facing protocol keys own peer)
    (early : own.counter ≤ protocol.finalIndex) {generate : KeyGenerator}
    {payload message : Bytes} (sent : (own.send generate payload).result = .ok message)
    (peerGenerate : KeyGenerator) :
    (peer.recv peerGenerate message).result = .ok payload ∧
        Facing protocol keys (own.send generate payload).session
          (peer.recv peerGenerate message).session ∨
      (peer.recv peerGenerate message).result = .error (.notSet (.peer .static)) ∧
        (keys peer.role).rs = none := by
  obtain ⟨left, right, going, peerGoing, alike, keyed⟩ := facing.goesOn early
  have sameProtocol := facing.protocol_eq
  have samePeerProtocol := facing.peerProtocol_eq
  obtain ⟨-, step, handshake, outcome, found, alsoGoing, turn, written, rfl, fits,
      after⟩ :=
    of_send_handshake sent (by rwa [sameProtocol])
  obtain rfl : left = handshake := Option.some.inj (going.symm.trans alsoGoing)
  rw [sameProtocol] at found written
  obtain ⟨message, there, rfl⟩ := compiled.eq_ofMessage early found
  rw [passive] at found written turn
  have peerKeyed : right.symmetric.hasKey =
      (Place.ofAnalysis protocol.analysis own.counter).isKeyed := by
    rw [← alike.symmetric, keyed]
    rfl
  obtain ⟨ends, reads⟩ := alike.read_of_write peerGenerate peerKeyed written
  have receives : peer.recv peerGenerate outcome.message = _ :=
    recv_handshake facing.peerUsable fits
      (by rwa [samePeerProtocol, ← facing.counter_eq])
      (by rw [samePeerProtocol, ← facing.counter_eq]; exact found) peerGoing
      (by rw [facing.role_eq, ← turn]; rfl)
  rw [samePeerProtocol] at receives
  rw [receives, after]
  cases ran : right.read protocol.suite peerGenerate
      (Step.ofMessage protocol.suite .passive
        (.ofAnalysis protocol.analysis own.counter) message).read
      outcome.message with
  | error stopped =>
      rw [ran] at reads
      exact .inr ⟨congrArg Except.error reads.1, reads.2⟩
  | ok received =>
      rw [ran] at reads
      obtain ⟨rfl, sameEnding, stillAlike⟩ := reads
      refine .inl ⟨rfl, facing.advance early
        (by rw [ends, compiled.isFinal_ofAnalysis]) sameEnding stillAlike ?_⟩
      intro before
      rw [Interpreter.hasKey_of_write written (compiled.not_isFinal before), keyed,
        compiled.isKeyedBefore_succ there]
      rfl

end Facing

/-- Pairs of sessions that go through a handshake together.  Either of them may send;
the other receives the message next. -/
inductive Together (protocol : Protocol) (prologue : Bytes) (keys : Role → Keys) :
    Session → Session → Prop where
  | start (role : Role) {own peer : Session} :
      Session.start protocol role prologue (keys role) = .ok own →
      Session.start protocol role.other prologue (keys role.other) = .ok peer →
      Together protocol prologue keys own peer
  | exchange (generate peerGenerate : KeyGenerator) (payload : Bytes)
      {own peer : Session} {message received : Bytes} :
      Together protocol prologue keys own peer → own.counter ≤ protocol.finalIndex →
      (own.send generate payload).result = .ok message →
      (peer.recv peerGenerate message).result = .ok received →
      Together protocol prologue keys (own.send generate payload).session
        (peer.recv peerGenerate message).session
  | swap {own peer : Session} :
      Together protocol prologue keys own peer →
      Together protocol prologue keys peer own

theorem Together.facing {keys : Role → Keys} {own peer : Session}
    (compiled : protocol.IsCompiled) (passive : protocol.attacker = .passive)
    (introduced : Introduced keys)
    (together : Together protocol prologue keys own peer) :
    Facing protocol keys own peer := by
  induction together with
  | start role started peerStarted =>
      exact .start compiled introduced started peerStarted
  | exchange generate peerGenerate payload _ early sent received facing =>
      rcases facing.exchange compiled passive early sent peerGenerate with
        ⟨-, next⟩ | ⟨missing, -⟩
      · exact next
      · rw [missing] at received
        cases received
  | swap _ facing => exact facing.symm

/-- Mutual agreement.  Two sessions of any pattern that were told the truth about
each other's keys are at the same place after every message.  Until the end they
hold the same transcript, and what either of them sends the other reads, unless it
was not given a static key that it needs.  In the end they hold the same hash and
the same transport ciphers. -/
theorem handshake_agreement {draft : Draft} {suite : Suite} {protocol : Protocol}
    {prologue : Bytes} {keys : Role → Keys} {own peer : Session}
    (compiled : Protocol.compile draft suite .passive = .ok protocol)
    (introduced : Introduced keys)
    (together : Together protocol prologue keys own peer) :
    own.counter = peer.counter ∧
    (own.counter ≤ protocol.finalIndex →
      (∃ ownState peerState, own.handshake = some ownState ∧
        peer.handshake = some peerState ∧
        ownState.symmetric = peerState.symmetric) ∧
      ∀ generate payload message, (own.send generate payload).result = .ok message →
        ∀ peerGenerate,
          (peer.recv peerGenerate message).result = .ok payload ∨
          (peer.recv peerGenerate message).result = .error (.notSet (.peer .static)) ∧
            (keys peer.role).rs = none) ∧
    (protocol.finalIndex < own.counter →
      own.isComplete ∧ peer.isComplete ∧ own.handshakeHash = peer.handshakeHash ∧
      own.cipherA = peer.cipherA ∧ own.cipherB = peer.cipherB ∧
      (∀ key, own.remoteStatic = some key →
        (keys peer.role).s.map (·.publicKey) = some key) ∧
      (∀ key, peer.remoteStatic = some key →
        (keys own.role).s.map (·.publicKey) = some key)) := by
  obtain ⟨wellFormed, -, passive⟩ := Protocol.isCompiled_of_compile compiled
  have facing := together.facing wellFormed passive introduced
  refine ⟨facing.counter_eq, ?_, ?_⟩
  · intro early
    obtain ⟨ownState, peerState, going, peerGoing, alike, -⟩ := facing.goesOn early
    refine ⟨⟨ownState, peerState, going, peerGoing, alike.symmetric⟩, ?_⟩
    intro generate payload message sent peerGenerate
    rcases facing.exchange wellFormed passive early sent peerGenerate with
      ⟨received, -⟩ | missing
    · exact .inl received
    · exact .inr missing
  · intro late
    obtain ⟨complete, sameHash, sameA, sameB, knows, peerKnows⟩ := facing.hasEnded late
    exact ⟨complete, by rwa [isComplete, ← sameHash], sameHash, sameA, sameB, knows,
      peerKnows⟩

/-- The keys of a party whose static key pair is also that of the other
party, as it knows. -/
def twinKeys : Keys :=
  let pair : KeyPair := .ofPrivateKey (default : PrivateKey .curve25519)
  { s := some pair, rs := some pair.publicKey }

open Catalog in
/-- The first message of a pattern without static keys arrives. -/
theorem handshake_agreement_of_NN :
    ∃ protocol own peer message,
      Protocol.compile (entry "NN" [] [Catalog.send [e], Catalog.recv [e, ee]]).toDraft
        {} .passive = .ok protocol ∧
      Introduced (fun _ => twinKeys) ∧
      Together protocol [] (fun _ => twinKeys) own peer ∧
      own.counter ≤ protocol.finalIndex ∧
      (own.send (fun _ => default) [1, 2, 3]).result = .ok message ∧
      (peer.recv (fun _ => default) message).result = .ok [1, 2, 3] := by
  -- The message is the ephemeral public key and the payload in the clear; its length is
  -- known without computing the key.
  obtain ⟨protocol, own, peer, step, left, outcome, compiled, final, started,
      peerStarted, sameProtocol, usable, first, found, going, turn, written, message⟩ :
    ∃ protocol own peer step left outcome,
      Protocol.compile (entry "NN" [] [Catalog.send [e], Catalog.recv [e, ee]]).toDraft
        {} .passive = .ok protocol ∧
      protocol.finalIndex = 1 ∧
      start protocol .initiator [] twinKeys = .ok own ∧
      start protocol .responder [] twinKeys = .ok peer ∧
      own.protocol = protocol ∧ own.failed = false ∧ own.counter = 0 ∧
      own.protocol.steps[own.counter]? = some step ∧ own.handshake = some left ∧
      step.sender = own.role ∧
      left.write own.protocol.suite (fun _ => default) step.write [1, 2, 3] =
        .ok outcome ∧
      outcome.message =
        [] ++ (KeyPair.ofPrivateKey (default : PrivateKey .curve25519)).publicKey ++
          [1, 2, 3] :=
    ⟨_, _, _, _, _, _, rfl, rfl, rfl, rfl, rfl, rfl, rfl, rfl, rfl, rfl, rfl, rfl⟩
  have length : outcome.message.length = DhFunction.curve25519.keyLength + 3 := by
    rw [message, List.nil_append, List.length_append, KeyPair.length_publicKey]
    rfl
  have sends : own.send (fun _ => default) [1, 2, 3] = _ :=
    send_handshake usable (by omega) found going turn
  have sent : (own.send (fun _ => default) [1, 2, 3]).result = .ok outcome.message := by
    rw [sends, written]
    simp only [commit, length]
    rfl
  have introduced : Introduced fun _ => twinKeys :=
    ⟨fun _ => rfl, fun _ => rfl, fun _ _ held => held⟩
  have together : Together protocol [] (fun _ => twinKeys) own peer :=
    .start .initiator started peerStarted
  have early : own.counter ≤ protocol.finalIndex := by omega
  refine ⟨protocol, own, peer, outcome.message, compiled, introduced, together, early,
    sent, ?_⟩
  obtain ⟨-, inHandshake, -⟩ := handshake_agreement compiled introduced together
  rcases (inHandshake early).2 _ _ _ sent fun _ => default with received | ⟨-, missing⟩
  · exact received
  · cases missing

end Session

end Noise
