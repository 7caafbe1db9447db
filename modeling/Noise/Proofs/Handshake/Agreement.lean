import Noise.Proofs.Dh.Ladder
import Noise.Proofs.Handshake.Interpreter
import Noise.Proofs.Transcript

/-!
# The parties of a message agree

When two parties hold the same transcript and know each other's keys, then what the one
writes the other reads: the payload arrives, and they hold the same transcript and know
each other's keys again.  The one thing that can go wrong is an agreement with a static
key that the reader was never told.
-/

namespace Noise

/-- A party that knows the other: all its key pairs are for one function, the ephemeral
key that it holds of the other party is that of the other party, and so is the static
key, if it holds one.  Of the keys that it was given, it has its static key pair still,
and a static key of the other party. -/
structure Keys.Knows (dh : DhFunction) (given own peer : Keys) : Prop where
  ofFunction : ∀ kind, ∀ pair ∈ own.own kind, pair.dh = dh
  ephemeral : own.re = peer.e.map (·.publicKey)
  static : ∀ key ∈ own.rs, peer.s.map (·.publicKey) = some key
  keepsOwn : own.s = given.s
  keepsPeer : own.rs = none → given.rs = none

namespace Keys.Knows

variable {dh : DhFunction} {given own peer : Keys} {kind : KeyKind}

/-- A key that a party holds of the other is the public half of a pair that
the other has. -/
theorem exists_pair (knows : Knows dh given own peer) {key : Bytes}
    (held : own.peer kind = some key) :
    ∃ pair, peer.own kind = some pair ∧ pair.publicKey = key := by
  cases kind with
  | ephemeral => exact Option.map_eq_some_iff.1 (knows.ephemeral.symm.trans held)
  | static => exact Option.map_eq_some_iff.1 (knows.static key held)

/-- A party holds the public half of every pair that the other has, unless it is a
static key that it was not given. -/
theorem peer_eq (knows : Knows dh given own peer) {pair : KeyPair}
    (has : peer.own kind = some pair) :
    own.peer kind = some pair.publicKey ∨ kind = .static ∧ own.peer kind = none ∧
    given.rs = none := by
  cases kind with
  | ephemeral =>
      have has : peer.e = some pair := has
      exact .inl (by simp [Keys.peer, knows.ephemeral, has])
  | static =>
      have has : peer.s = some pair := has
      cases held : own.rs with
      | none => exact .inr ⟨rfl, held, knows.keepsPeer held⟩
      | some key =>
          have same := knows.static key held
          rw [has, Option.map_some, Option.some.injEq] at same
          exact .inl (held.trans (congrArg some same.symm))

end Keys.Knows

/-- Two parties with the same transcript and the same shared secret that know
each other. -/
structure HandshakeState.Alike (dh : DhFunction) (leftGiven rightGiven : Keys)
    (left right : HandshakeState) : Prop where
  leftKnows : Keys.Knows dh leftGiven left.toKeys right.toKeys
  rightKnows : Keys.Knows dh rightGiven right.toKeys left.toKeys
  psk : left.psk = right.psk
  symmetric : left.symmetric = right.symmetric

theorem HandshakeState.Alike.symm {dh : DhFunction} {leftGiven rightGiven : Keys}
    {left right : HandshakeState} (alike : Alike dh leftGiven rightGiven left right) :
    Alike dh rightGiven leftGiven right left :=
  ⟨alike.rightKnows, alike.leftKnows, alike.psk.symm, alike.symmetric.symm⟩

namespace HandshakeState.Alike

variable {dh : DhFunction} {leftGiven rightGiven : Keys} {left right : HandshakeState}
  {pair : KeyPair}

/-- The transcripts may change together. -/
theorem withSymmetric (alike : Alike dh leftGiven rightGiven left right)
    (symmetric : SymmetricState) :
    Alike dh leftGiven rightGiven { left with symmetric } { right with symmetric } :=
  ⟨alike.leftKnows, alike.rightKnows, alike.psk, rfl⟩

/-- One party may take an ephemeral key if the other learns it. -/
theorem withEphemeral (alike : Alike dh leftGiven rightGiven left right)
    (ofFunction : pair.dh = dh) :
    Alike dh leftGiven rightGiven { left with e := some pair }
      { right with re := some pair.publicKey } where
  leftKnows :=
    { alike.leftKnows with
      ofFunction := by
        intro kind own has
        cases kind with
        | ephemeral =>
            obtain rfl := Option.some.inj has
            exact ofFunction
        | static => exact alike.leftKnows.ofFunction .static own has }
  rightKnows :=
    { alike.rightKnows with
      ofFunction := fun kind own has =>
        alike.rightKnows.ofFunction kind own (by cases kind <;> exact has)
      ephemeral := rfl }
  psk := alike.psk
  symmetric := alike.symmetric

/-- A party may learn the static key that the other has. -/
theorem withStatic (alike : Alike dh leftGiven rightGiven left right)
    (has : left.s = some pair) :
    Alike dh leftGiven rightGiven left { right with rs := some pair.publicKey } where
  leftKnows :=
    ⟨alike.leftKnows.ofFunction, alike.leftKnows.ephemeral, alike.leftKnows.static,
    alike.leftKnows.keepsOwn, alike.leftKnows.keepsPeer⟩
  rightKnows :=
    { ofFunction := fun kind own has =>
      alike.rightKnows.ofFunction kind own (by cases kind <;> exact has)
      ephemeral := alike.rightKnows.ephemeral
      static := by
        rintro key ⟨⟩
        exact congrArg (Option.map _) has
      keepsOwn := alike.rightKnows.keepsOwn
      keepsPeer := by simp }
  psk := alike.psk
  symmetric := alike.symmetric

end HandshakeState.Alike

namespace Interpreter

open HandshakeState (Alike)

variable {dh : DhFunction} {senderGiven receiverGiven : Keys}

/-- What the receiver comes to: to the expected value and a state like the sender's,
with the rest of the message left, or to the one failure that there can be. -/
def Receives {α : Type} (dh : DhFunction) (senderGiven receiverGiven : Keys)
    (sent : HandshakeState) (expected : α) (rest : Bytes) :
    EStateM.Result ProtocolError Turn α → Prop
  | .ok value turn =>
      value = expected ∧ turn.wire = rest ∧
        Alike dh senderGiven receiverGiven sent turn.state
  | .error error _ => error = .notSet (.peer .static) ∧ receiverGiven.rs = none

/-- What one party writes the other reads.  The value that is read is told by the
value of the writer. -/
def Conveys {α β : Type} (dh : DhFunction) (senderGiven receiverGiven : Keys)
    (writing : Work α) (reading : Work β) (told : α → β) : Prop :=
  ∀ sender value sent, writing.run sender = .ok value sent →
    ∃ field, sent.wire = sender.wire ++ field ∧
      ∀ receiver rest, Alike dh senderGiven receiverGiven sender.state receiver.state →
        receiver.wire = field ++ rest →
        Receives dh senderGiven receiverGiven sent.state (told value) rest
          (reading.run receiver)

/-- Fields in sequence are read in sequence. -/
theorem Conveys.bind {α α' β β' : Type} {first : Work α} {first' : Work α'}
    {next : α → Work β} {next' : α' → Work β'} {told : α → α'} {toldNext : β → β'}
    (conveysFirst : Conveys dh senderGiven receiverGiven first first' told)
    (conveysNext : ∀ value,
      Conveys dh senderGiven receiverGiven (next value) (next' (told value)) toldNext) :
    Conveys dh senderGiven receiverGiven (first >>= next)
      (first' >>= next') toldNext := by
  intro sender value sent ran
  rw [EStateM.run_bind] at ran
  cases firstRan : first.run sender with
  | error error turn => simp [firstRan] at ran
  | ok middleValue middle =>
      simp only [firstRan] at ran
      obtain ⟨firstField, firstWire, firstReads⟩ :=
        conveysFirst sender middleValue middle firstRan
      obtain ⟨nextField, nextWire, nextReads⟩ :=
        conveysNext middleValue middle value sent ran
      refine ⟨firstField ++ nextField,
        by rw [nextWire, firstWire, List.append_assoc], ?_⟩
      intro receiver rest alike wire
      have received :=
        firstReads receiver (nextField ++ rest) alike (by rw [wire, List.append_assoc])
      rw [EStateM.run_bind]
      cases readRan : first'.run receiver with
      | error error turn =>
          rw [readRan] at received
          exact received
      | ok readValue turn =>
          rw [readRan] at received
          obtain ⟨rfl, left, stillAlike⟩ := received
          exact nextReads turn rest stillAlike left

/-- A change of the transcript is no field. -/
theorem mix_conveys (change : SymmetricState → SymmetricState) :
    Conveys dh senderGiven receiverGiven (mix change) (mix change) id := by
  intro sender value sent ran
  obtain ⟨rfl, rfl⟩ := EStateM.Result.ok.inj ran
  refine ⟨[], (List.append_nil _).symm, ?_⟩
  intro receiver rest alike wire
  exact ⟨rfl, wire, alike.leftKnows, alike.rightKnows, alike.psk,
    congrArg change alike.symmetric⟩

theorem Conveys.pure {α : Type} (value : α) :
    Conveys dh senderGiven receiverGiven (pure value) (pure value) id := by
  intro sender value sent ran
  obtain ⟨rfl, rfl⟩ := EStateM.Result.ok.inj ran
  exact ⟨[], (List.append_nil _).symm, fun receiver rest alike wire =>
    ⟨rfl, wire, alike⟩⟩

/-! ## Secrets -/

theorem run_present {α : Type} {operand : Operand} {held : Option α} {turn next : Turn}
    {value : α} :
    (present operand held).run turn = .ok value next ↔
      held = some value ∧ next = turn := by
  cases held with
  | none => simp [present]
  | some held => simp [present, eq_comm]

theorem run_attempt {α : Type} {result : Except ProtocolError α} {turn next : Turn}
    {value : α} :
    (attempt result).run turn = .ok value next ↔ result = .ok value ∧ next = turn := by
  cases result with
  | error error => simp [attempt]
  | ok result => simp [attempt, eq_comm]

theorem run_agreedSecret {own peer : KeyKind} {turn next : Turn} {secret : Bytes} :
    (agreedSecret own peer).run turn = .ok secret next ↔
      ∃ pair key, turn.state.own own = some pair ∧ turn.state.peer peer = some key ∧
        pair.agree key = .ok secret ∧ next = turn := by
  simp only [agreedSecret, ownPair, peerKey, EStateM.run_bind, EStateM.run_get]
  cases turn.state.own own with
  | none => simp [present]
  | some pair =>
      cases held : turn.state.peer peer with
      | none => simp [present, held]
      | some key => simp [present, held, run_attempt]

/-- Both parties of an agreement come to the same secret. -/
theorem agreedSecret_conveys (senderKind receiverKind : KeyKind) :
    Conveys dh senderGiven receiverGiven (agreedSecret senderKind receiverKind)
      (agreedSecret receiverKind senderKind) id := by
  intro sender secret sent ran
  obtain ⟨pair, key, own, peer, agreed, rfl⟩ := run_agreedSecret.1 ran
  refine ⟨[], (List.append_nil _).symm, ?_⟩
  intro receiver rest alike wire
  obtain ⟨otherPair, otherOwn, rfl⟩ := alike.leftKnows.exists_pair peer
  have sameFunction : pair.dh = otherPair.dh :=
    (alike.leftKnows.ofFunction _ pair own).trans
      (alike.rightKnows.ofFunction _ otherPair otherOwn).symm
  rcases alike.rightKnows.peer_eq own with held | ⟨isStatic, missing, notGiven⟩
  · have reads : (agreedSecret receiverKind senderKind).run receiver =
        .ok secret receiver :=
      run_agreedSecret.2 ⟨otherPair, pair.publicKey, otherOwn, held,
        (KeyPair.agree_comm sameFunction).symm.trans agreed, rfl⟩
    rw [reads]
    exact ⟨rfl, wire, alike⟩
  · have fails : (agreedSecret receiverKind senderKind).run receiver =
        .error (.notSet (.peer senderKind)) receiver := by
      simp [agreedSecret, ownPair, peerKey, otherOwn, missing, present]
    rw [fails, isStatic]
    exact ⟨rfl, notGiven⟩

theorem sharedSecret_conveys :
    Conveys dh senderGiven receiverGiven sharedSecret sharedSecret id := by
  intro sender secret sent ran
  simp only [sharedSecret, EStateM.run_bind, EStateM.run_get, run_present] at ran
  obtain ⟨given, rfl⟩ := ran
  refine ⟨[], (List.append_nil _).symm, ?_⟩
  intro receiver rest alike wire
  have reads : sharedSecret.run receiver = .ok secret receiver := by
    simp [sharedSecret, ← alike.psk, given, present]
  rw [reads]
  exact ⟨rfl, wire, alike⟩

/-! ## Fields -/

/-- Bytes at the front of a message are taken off it. -/
theorem run_take_append {turn : Turn} {field rest : Bytes}
    (wire : turn.wire = field ++ rest) :
    (take field.length).run turn = .ok field { turn with wire := rest } := by
  have fits : ¬ (field ++ rest).length < field.length := by simp
  simp only [take, EStateM.run_bind, EStateM.run_get, wire, fits, ↓reduceIte,
    EStateM.run_modify, EStateM.run_pure, List.take_left, List.drop_left]

variable (suite : Suite) (hasPsk : Bool) (role : Role)
  (senderGenerate receiverGenerate : KeyGenerator)

/-- A party under a passive attacker. -/
def passive (generate : KeyGenerator) : Setting where
  suite
  attacker := .passive
  hasPsk
  role
  generate

theorem mixEphemeral_conveys (key : Bytes) :
    Conveys suite.dh senderGiven receiverGiven
      (mixEphemeral (passive suite hasPsk role senderGenerate) key)
      (mixEphemeral (passive suite hasPsk role.other receiverGenerate) key) id := by
  cases hasPsk with
  | false => exact (mix_conveys _).bind fun _ => .pure ()
  | true => exact (mix_conveys _).bind fun _ => mix_conveys (·.mixKey suite key)

theorem run_ephemeralPair (setting : Setting) (turn : Turn) :
    ∃ pair drewKey, (ephemeralPair setting).run turn =
      .ok pair { turn with state.e := some pair, drewKey } ∧
      (turn.state.e = some pair ∨ pair.dh = setting.suite.dh) := by
  simp only [ephemeralPair, EStateM.run_bind, EStateM.run_get]
  cases held : turn.state.e with
  | none =>
      exact ⟨.ofPrivateKey (setting.generate setting.suite.dh), true, rfl, .inr rfl⟩
  | some pair =>
      refine ⟨pair, turn.drewKey, ?_, .inl rfl⟩
      simp only [EStateM.run_pure, ← held]

/-- The ephemeral key that one party sends is the one that the other learns. -/
theorem ephemeral_conveys :
    Conveys suite.dh senderGiven receiverGiven
      (do
        let pair ← ephemeralPair (passive suite hasPsk role senderGenerate)
        append pair.publicKey
        return pair.publicKey)
      (do
        let key ← take suite.dh.keyLength
        learn .ephemeral key
        check (passive suite hasPsk role.other receiverGenerate) .ephemeral key
        return key) id := by
  intro sender key sent ran
  obtain ⟨pair, drewKey, made, origin⟩ :=
    run_ephemeralPair (passive suite hasPsk role senderGenerate) sender
  simp only [EStateM.run_bind, made] at ran
  obtain ⟨rfl, rfl⟩ := EStateM.Result.ok.inj ran
  refine ⟨pair.publicKey, rfl, ?_⟩
  intro receiver rest alike wire
  have ofFunction : pair.dh = suite.dh := by
    rcases origin with held | fresh
    · exact alike.leftKnows.ofFunction .ephemeral pair held
    · exact fresh
  have taken := run_take_append wire
  rw [KeyPair.length_publicKey, ofFunction] at taken
  rw [EStateM.run_bind, taken]
  exact ⟨rfl, rfl, alike.withEphemeral ofFunction⟩

theorem run_encryptAndAppend {setting : Setting} {turn sent : Turn} {plaintext : Bytes}
    {value : Unit}
    (ran : (encryptAndHash setting plaintext >>= append).run turn = .ok value sent) :
    ∃ field symmetric,
      turn.state.symmetric.encryptAndHash setting.suite plaintext =
        .ok (field, symmetric) ∧
      sent =
        { turn with state.symmetric := symmetric, wire := turn.wire ++ field } := by
  simp only [encryptAndHash, EStateM.run_bind, EStateM.run_get] at ran
  cases encrypted : turn.state.symmetric.encryptAndHash setting.suite plaintext with
  | error halt => simp [encrypted] at ran
  | ok result =>
      rw [encrypted] at ran
      obtain ⟨-, rfl⟩ := EStateM.Result.ok.inj ran
      exact ⟨result.1, result.2, rfl, rfl⟩

theorem run_decrypt (setting : Setting) (turn : Turn) {field plaintext : Bytes}
    {symmetric : SymmetricState}
    (decrypted : turn.state.symmetric.decryptAndHash setting.suite field =
      .ok (plaintext, symmetric)) :
    (decryptAndHash setting field).run turn =
      .ok plaintext { turn with state.symmetric := symmetric } := by
  simp only [decryptAndHash, EStateM.run_bind, EStateM.run_get, decrypted]
  rfl

/-- The static key that one party sends is the one that the other learns. -/
theorem static_conveys :
    Conveys suite.dh senderGiven receiverGiven
      (writeToken (passive suite hasPsk role senderGenerate) (.key .static))
      (readToken (passive suite hasPsk role.other receiverGenerate) (.key .static))
        id := by
  intro sender value sent ran
  rw [writeToken, ownPair, EStateM.run_bind, EStateM.run_bind, EStateM.run_get] at ran
  cases has : sender.state.s with
  | none => simp [Keys.own, has, present] at ran
  | some pair =>
      simp only [Keys.own, has, present, EStateM.run_pure] at ran
      obtain ⟨field, symmetric, encrypted, rfl⟩ := run_encryptAndAppend ran
      refine ⟨field, rfl, ?_⟩
      intro receiver rest alike wire
      have ofFunction := alike.leftKnows.ofFunction .static pair has
      have length := SymmetricState.length_of_encryptAndHash encrypted
      rw [KeyPair.length_publicKey, ofFunction, alike.symmetric] at length
      have decrypted := SymmetricState.decryptAndHash_of_encryptAndHash encrypted
      rw [alike.symmetric] at decrypted
      have taken := run_take_append wire
      rw [length] at taken
      have reads :
          (readToken (passive suite hasPsk role.other receiverGenerate)
            (.key .static)).run receiver =
          .ok () { receiver with
            state := { receiver.state with symmetric, rs := some pair.publicKey },
            wire := rest } := by
        simp only [readToken, overhead, EStateM.run_bind, EStateM.run_get,
          EStateM.run_pure]
        rw [show (passive suite hasPsk role.other receiverGenerate).suite =
          suite from rfl, taken]
        simp only
        rw [run_decrypt (passive suite hasPsk role.other receiverGenerate)
          { receiver with wire := rest } decrypted]
        simp only [KeyPair.length_publicKey, ofFunction, ne_eq, not_true_eq_false,
          ↓reduceIte]
        rfl
      rw [reads]
      exact ⟨rfl, rfl, (alike.withSymmetric symmetric).withStatic has⟩

/-- What one party does for a token the other undoes. -/
theorem token_conveys (token : Token) :
    Conveys suite.dh senderGiven receiverGiven
      (writeToken (passive suite hasPsk role senderGenerate) token)
      (readToken (passive suite hasPsk role.other receiverGenerate) token) id := by
  cases token with
  | key kind =>
      cases kind with
      | ephemeral =>
          have conveys : Conveys suite.dh senderGiven receiverGiven _ _ _ :=
            (ephemeral_conveys suite hasPsk role senderGenerate receiverGenerate).bind
              fun key =>
              mixEphemeral_conveys suite hasPsk role senderGenerate receiverGenerate key
          simp only [bind_assoc, pure_bind] at conveys
          exact conveys
      | static => exact static_conveys suite hasPsk role senderGenerate receiverGenerate
  | dh initiator responder =>
      cases role with
      | initiator =>
          exact (agreedSecret_conveys initiator responder).bind fun secret =>
            mix_conveys (·.mixKey suite secret)
      | responder =>
          exact (agreedSecret_conveys responder initiator).bind fun secret =>
            mix_conveys (·.mixKey suite secret)
  | psk =>
      exact sharedSecret_conveys.bind fun secret =>
        mix_conveys (·.mixKeyAndHash suite secret)

theorem tokens_convey (tokens : List Token) :
    Conveys suite.dh senderGiven receiverGiven
      (tokens.forM (writeToken (passive suite hasPsk role senderGenerate)))
      (tokens.forM (readToken (passive suite hasPsk role.other receiverGenerate)))
        id := by
  induction tokens with
  | nil => exact .pure ()
  | cons token rest ih =>
      exact (token_conveys suite hasPsk role senderGenerate receiverGenerate token).bind
        fun _ => ih

/-- The end of a message depends on the transcript alone. -/
theorem run_finish (isFinal : Bool) (symmetric : SymmetricState) :
    ∃ ending next, Option.isSome ending = isFinal ∧
      ∀ (setting : Setting) (turn : Turn), setting.suite = suite →
        turn.state.symmetric = symmetric →
        (finish setting isFinal).run turn =
          .ok ending { turn with state.symmetric := next } := by
  cases isFinal with
  | false =>
      refine ⟨none, symmetric, rfl, ?_⟩
      rintro setting turn - rfl
      rfl
  | true =>
      refine ⟨some ⟨symmetric.h, (symmetric.split suite).1, (symmetric.split suite).2⟩,
        symmetric.clear, rfl, ?_⟩
      rintro setting turn rfl rfl
      rfl

/-- The payload, which is all that is left of the message, arrives, and the handshake
ends for both parties or for neither. -/
theorem payload_conveyed {isFinal : Bool} {payload : Bytes} {sender sent : Turn}
    {ending : Option Ending}
    (ran : (writePayload (passive suite hasPsk role senderGenerate) isFinal payload).run
      sender = .ok ending sent) :
    ending.isSome = isFinal ∧
      ∃ field, sent.wire = sender.wire ++ field ∧
        ∀ receiver,
          Alike suite.dh senderGiven receiverGiven sender.state receiver.state →
          receiver.wire = field →
          ∃ received,
            (readPayload (passive suite hasPsk role.other receiverGenerate) isFinal).run
              receiver = .ok (payload, ending) received ∧
            Alike suite.dh senderGiven receiverGiven sent.state received.state := by
  rw [writePayload, ← bind_assoc, EStateM.run_bind] at ran
  cases appended :
      (encryptAndHash (passive suite hasPsk role senderGenerate) payload >>= append).run
        sender with
  | error error turn => simp [appended] at ran
  | ok value middle =>
      obtain ⟨field, symmetric, encrypted, rfl⟩ := run_encryptAndAppend appended
      obtain ⟨ends, last, ended, finishes⟩ := run_finish suite isFinal symmetric
      simp only [appended] at ran
      rw [finishes _ _ rfl rfl] at ran
      obtain ⟨rfl, rfl⟩ := EStateM.Result.ok.inj ran
      refine ⟨ended, field, rfl, ?_⟩
      intro receiver alike wire
      have length := SymmetricState.length_of_encryptAndHash encrypted
      have decrypted := SymmetricState.decryptAndHash_of_encryptAndHash encrypted
      rw [alike.symmetric] at length decrypted
      have fits : ¬ field.length <
          if receiver.state.symmetric.hasKey then tagLength else 0 := by
        omega
      refine ⟨{ receiver with
          state := { receiver.state with symmetric := last }, wire := [] }, ?_,
        alike.withSymmetric last⟩
      have taken : takeRest.run receiver = .ok field { receiver with wire := [] } := by
        simp only [takeRest, overhead, EStateM.run_bind, EStateM.run_get,
          EStateM.run_pure, fits, ↓reduceIte, EStateM.run_modify, wire]
      have opened := run_decrypt (passive suite hasPsk role.other receiverGenerate)
        { receiver with wire := [] } decrypted
      simp only [readPayload, EStateM.run_bind, taken, opened]
      rw [finishes _ _ rfl rfl]
      rfl

/-- What was written is the fields of the tokens and then the payload. -/
theorem of_write {setting : Setting} {tokens : List Token} {isFinal : Bool}
    {payload : Bytes} {sender : HandshakeState} {outcome : Outcome}
    (written : write setting sender tokens isFinal payload = .ok outcome) :
    ∃ middle ending sent,
      (tokens.forM (writeToken setting)).run { state := sender, wire := [] } =
        .ok () middle ∧
      (writePayload setting isFinal payload).run middle = .ok ending sent ∧
      outcome =
        { message := sent.wire, state := sent.state, ending,
          drewKey := sent.drewKey } := by
  rw [write, writeMessage, EStateM.run_bind] at written
  cases tokensRan :
    (tokens.forM (writeToken setting)).run { state := sender, wire := [] } with
  | error error turn =>
      simp only [tokensRan] at written
      cases written
  | ok value middle =>
      simp only [tokensRan] at written
      cases payloadRan : (writePayload setting isFinal payload).run middle with
      | error error turn =>
          simp only [payloadRan] at written
          cases written
      | ok ending sent =>
          simp only [payloadRan, Except.ok.injEq] at written
          exact ⟨middle, ending, sent, rfl, payloadRan, written.symm⟩

/-- A message that one party writes is read by the other, who gets the payload and ends
in a state like the writer's, or lacks a static key that it was not given. -/
theorem read_of_write {tokens : List Token} {isFinal : Bool} {payload : Bytes}
    {sender receiver : HandshakeState} {outcome : Outcome}
    (alike : Alike suite.dh senderGiven receiverGiven sender receiver)
    (written : write
      (passive suite hasPsk role senderGenerate) sender tokens isFinal payload =
      .ok outcome) :
    outcome.ending.isSome = isFinal ∧
      match read (passive suite hasPsk role.other receiverGenerate) receiver
        tokens isFinal outcome.message with
      | .ok received =>
          received.message = payload ∧ received.ending = outcome.ending ∧
            Alike suite.dh senderGiven receiverGiven outcome.state received.state
      | .error failure => failure.error = .notSet (.peer .static) ∧
          receiverGiven.rs = none := by
  obtain ⟨middle, ending, sent, tokensRan, payloadRan, rfl⟩ := of_write written
  obtain ⟨first, firstWire, readsTokens⟩ :=
    tokens_convey suite hasPsk role senderGenerate receiverGenerate tokens _ () middle
      tokensRan
  obtain ⟨ends, second, secondWire, readsPayload⟩ :=
    payload_conveyed suite hasPsk role senderGenerate receiverGenerate payloadRan
  refine ⟨ends, ?_⟩
  have whole : sent.wire = first ++ second := by
    rw [secondWire, firstWire, List.nil_append]
  -- The receiver takes the fields of the tokens off the front, and the payload is what
  -- is left.
  have received :=
    readsTokens { state := receiver, wire := sent.wire } second alike whole
  rw [read, readMessage, EStateM.run_bind]
  cases readRan :
    (tokens.forM (readToken (passive suite hasPsk role.other receiverGenerate))).run
      { state := receiver, wire := sent.wire } with
  | error error turn =>
      rw [readRan] at received
      exact received
  | ok value turn =>
      rw [readRan] at received
      obtain ⟨-, left, stillAlike⟩ := received
      obtain ⟨last, readsOn, alikeAtLast⟩ := readsPayload turn stillAlike left
      simp only [readsOn]
      exact ⟨trivial, trivial, alikeAtLast⟩

end Interpreter

end Noise
