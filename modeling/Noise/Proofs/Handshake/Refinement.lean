import Noise.Proofs.Handshake.Interpreter
import Noise.Proofs.Transcript

/-!
# Programs carry out tokens

A program runs on a machine, the tokens of a message are carried out by a party at
work.  A machine stands for a party, and a program performs a piece of work if both
come to the same result, or fail at the same point with the same error.  Each
token's program performs the token, so the programs of a whole message do what its
tokens and its payload say.
-/

namespace Noise

namespace Machine

variable {suite : Suite} {generate : KeyGenerator}

theorem run_cons (machine : Machine) (instruction : Instruction) (program : Program) :
    machine.run suite generate (instruction :: program) =
      machine.exec suite generate instruction >>= fun next =>
        next.run suite generate program := rfl

theorem run_append (machine : Machine) (first second : Program) :
    machine.run suite generate (first ++ second) =
      machine.run suite generate first >>= fun next =>
        next.run suite generate second := by
  simp only [run, List.foldlM_append]

@[simp] theorem attempt_ok {α : Type} (machine : Machine) (value : α) :
    machine.attempt (.ok value) = .ok value := rfl

@[simp] theorem attempt_error {α : Type} (machine : Machine) (error : ProtocolError) :
    (machine.attempt (.error error) : Except Stopped α) = .error { machine, error } :=
  rfl

@[simp] theorem attemptSymmetric_ok {α : Type} (machine : Machine) (value : α) :
    machine.attemptSymmetric (.ok value) = .ok value := rfl

@[simp] theorem attemptSymmetric_error {α : Type} (machine : Machine)
    (halt : Halt SymmetricState) :
    (machine.attemptSymmetric (.error halt) : Except Stopped α) =
      .error { machine := machine.withSymmetric halt.state, error := halt.error } := rfl

end Machine

namespace Interpreter

/-- A machine that writes, as a party at work. -/
def writing (machine : Machine) : Turn where
  state := machine.state
  wire := machine.frame.output
  drewKey := machine.frame.drewKey

/-- A machine that reads, as a party at work. -/
def reading (machine : Machine) : Turn where
  state := machine.state
  wire := machine.frame.input.drop machine.frame.position.toNat
  drewKey := machine.frame.drewKey

/-- A way to look at the machines that take part in a message. -/
structure Stage where
  /-- The party that a machine stands for. -/
  view : Machine → Turn
  /-- Which machines occur, by whether the transcript has a key. -/
  holds : Bool → Machine → Prop
  view_state : ∀ machine, (view machine).state = machine.state
  view_withSymmetric : ∀ machine symmetric,
    view (machine.withSymmetric symmetric) =
      { view machine with state.symmetric := symmetric }
  view_ending : ∀ machine ending,
    view { machine with frame.ending := ending } = view machine
  hasKey_eq : ∀ {keyed machine}, holds keyed machine →
    machine.state.symmetric.hasKey = keyed
  notEnded : ∀ {keyed machine}, holds keyed machine → machine.frame.ending = none
  holds_withSymmetric : ∀ {keyed machine} symmetric,
    holds keyed machine → holds symmetric.hasKey (machine.withSymmetric symmetric)

/-- A run of a program comes to the same as a run of some work: to a machine with the
result of the work, or to a failure at the same point. -/
def Stage.Matches {α : Type} (stage : Stage) (after : Machine → Prop)
    (result : Machine → α) :
    Except Stopped Machine → EStateM.Result ProtocolError Turn α → Prop
  | .ok next, worked => worked = .ok (result next) (stage.view next) ∧ after next
  | .error stopped, worked => worked = .error stopped.error (stage.view stopped.machine)

theorem Stage.Matches.imp {α : Type} {stage : Stage} {after weaker : Machine → Prop}
    {result : Machine → α} {ran : Except Stopped Machine}
    {worked : EStateM.Result ProtocolError Turn α}
    (same : stage.Matches after result ran worked)
    (implies : ∀ next, after next → weaker next) :
    stage.Matches weaker result ran worked := by
  cases ran with
  | error stopped => exact same
  | ok next => exact ⟨same.1, implies next same.2⟩

/-- A program does a piece of work. -/
def Performs {α : Type} (setting : Setting) (stage : Stage)
    (before after : Machine → Prop) (program : Program) (work : Work α)
    (result : Machine → α) : Prop :=
  ∀ machine, before machine →
    stage.Matches after result (machine.run setting.suite setting.generate program)
      (work.run (stage.view machine))

variable {setting : Setting} {stage : Stage} {keyed : Bool}
  {before between after : Machine → Prop}

/-- Work in sequence is done by programs in sequence. -/
theorem Performs.append {α : Type} {first second : Program} {work : Work Unit}
    {next : Work α} {result : Machine → α}
    (firstPerforms : Performs setting stage before between first work fun _ => ())
    (secondPerforms : Performs setting stage between after second next result) :
    Performs setting stage before after (first ++ second)
      (work >>= fun _ => next) result := by
  intro machine ready
  have firstRun := firstPerforms machine ready
  rw [Machine.run_append, EStateM.run_bind]
  cases ran : machine.run setting.suite setting.generate first with
  | error stopped =>
      rw [ran] at firstRun
      rw [firstRun]
      rfl
  | ok middle =>
      rw [ran] at firstRun
      rw [firstRun.1]
      exact secondPerforms middle firstRun.2

/-! ## Tokens that both parties carry out alike -/

/-- The own key pair that an agreement uses. -/
theorem run_ownPair (stage : Stage) (machine : Machine) (kind : KeyKind) :
    (ownPair kind).run (stage.view machine) =
      match machine.state.keyPair (.own kind) with
      | .ok pair => .ok pair (stage.view machine)
      | .error error => .error error (stage.view machine) := by
  have known := stage.view_state machine
  cases kind with
  | ephemeral =>
      cases own : machine.state.e <;>
        simp [ownPair, Keys.own, present, HandshakeState.keyPair, known, own]
  | static =>
      cases own : machine.state.s <;>
        simp [ownPair, Keys.own, present, HandshakeState.keyPair, known, own]

/-- The other party's public key that an agreement uses. -/
theorem run_peerKey (stage : Stage) (machine : Machine) (kind : KeyKind) :
    (peerKey kind).run (stage.view machine) =
      match machine.value (.peer kind) with
      | .ok key => .ok key (stage.view machine)
      | .error error => .error error (stage.view machine) := by
  have known := stage.view_state machine
  cases kind with
  | ephemeral =>
      cases peer : machine.state.re <;>
        simp [peerKey, Keys.peer, present, Machine.value, Machine.value.known,
          known, peer]
  | static =>
      cases peer : machine.state.rs <;>
        simp [peerKey, Keys.peer, present, Machine.value, Machine.value.known,
          known, peer]

theorem run_mix (stage : Stage) (machine : Machine)
    (change : SymmetricState → SymmetricState) :
    (mix change).run (stage.view machine) =
      .ok () (stage.view (machine.withSymmetric (change machine.state.symmetric))) := by
  simp only [mix, EStateM.run_modify, stage.view_withSymmetric, stage.view_state]

/-- An agreement is computed from the same two keys. -/
theorem mixAgreement_performs (initiator responder : KeyKind) :
    Performs setting stage (stage.holds keyed) (stage.holds true)
      [.mixKey (.agreement initiator responder setting.role)]
      (mixAgreement setting initiator responder) fun _ => () := by
  intro machine ready
  -- Both roles compute from an own and a peer key; only the choice of the kinds
  -- differs.
  obtain ⟨own, peer, source, work⟩ : ∃ own peer,
      Source.agreement initiator responder setting.role = .dh (.own own) (.peer peer) ∧
      mixAgreement setting initiator responder =
        agreedSecret own peer >>= fun secret =>
          mix (·.mixKey setting.suite secret) := by
    unfold mixAgreement
    cases setting.role <;> exact ⟨_, _, rfl, rfl⟩
  rw [source, work, Machine.run_cons]
  simp only [agreedSecret, EStateM.run_bind, run_ownPair, Machine.exec, Machine.source]
  cases machine.state.keyPair (.own own) with
  | error error => rfl
  | ok pair =>
      simp only [run_peerKey, ok_bind]
      cases machine.value (.peer peer) with
      | error error => rfl
      | ok key =>
          simp only [ok_bind]
          cases pair.agree key with
          | error error => rfl
          | ok secret =>
              exact ⟨run_mix stage machine _,
                stage.holds_withSymmetric (.mixKey _ _ secret) ready⟩

/-- The shared secret is taken in from the same place. -/
theorem mixSharedSecret_performs :
    Performs setting stage (stage.holds keyed) (stage.holds true) [.mixKeyAndHash .psk]
      (mixSharedSecret setting) fun _ => () := by
  intro machine ready
  have known := stage.view_state machine
  simp only [Machine.run_cons, Machine.exec, Machine.value]
  cases given : machine.state.psk with
  | none =>
      change (mixSharedSecret setting).run _ = _
      simp [mixSharedSecret, sharedSecret, present, known, given]
  | some secret =>
      refine ⟨?_, stage.holds_withSymmetric (.mixKeyAndHash _ _ secret) ready⟩
      simp only [mixSharedSecret, sharedSecret, present, EStateM.run_bind,
        EStateM.run_get, known, given, EStateM.run_pure]
      exact run_mix stage machine _

/-- Nothing to run does nothing. -/
theorem Performs.nil {result : Machine → Unit} :
    Performs setting stage (stage.holds keyed) (stage.holds keyed) []
      (pure ()) result :=
  fun _ ready => ⟨rfl, ready⟩

/-- The handshake ends with a split if the message is the final one, and goes on
otherwise.  The text that was read stays. -/
theorem matches_finish (isFinal : Bool) {machine : Machine}
    (ready : stage.holds keyed machine) :
    stage.Matches
      (fun next => next.frame.plaintext = machine.frame.plaintext ∧
        (isFinal = false → stage.holds keyed next)) (·.frame.ending)
      (machine.run setting.suite setting.generate (if isFinal then [.split] else []))
      ((finish setting isFinal).run (stage.view machine)) := by
  cases isFinal with
  | false =>
      refine ⟨?_, rfl, fun _ => ready⟩
      simp only [stage.notEnded ready]
      rfl
  | true =>
      refine ⟨?_, rfl, by simp⟩
      simp only [finish, ↓reduceIte, EStateM.run_bind, EStateM.run_get,
        stage.view_state, run_mix, EStateM.run_pure]
      exact congrArg (EStateM.Result.ok _) (stage.view_ending _ _).symm

/-! ## Writing -/

/-- Machines that write a message with a payload. -/
def writingStage (payload : Bytes) : Stage where
  view := writing
  holds keyed machine :=
    machine.frame.payload = payload ∧ machine.frame.ending = none ∧
      machine.state.symmetric.hasKey = keyed
  view_state _ := rfl
  view_withSymmetric _ _ := rfl
  view_ending _ _ := rfl
  hasKey_eq ready := ready.2.2
  notEnded ready := ready.2.1
  holds_withSymmetric _ ready := ⟨ready.1, ready.2.1, rfl⟩

variable {payload : Bytes}

theorem writeEphemeral_performs :
    Performs setting (writingStage payload) ((writingStage payload).holds keyed)
      ((writingStage payload).holds (keyed || setting.hasPsk))
      (Token.write setting.hasPsk setting.role (.key .ephemeral))
      (writeToken setting (.key .ephemeral)) fun _ => () := by
  rintro ⟨⟨⟨s, e, rs, re, psk⟩, symmetric⟩, frame⟩ ⟨samePayload, notEnded, keyedNow⟩
  obtain ⟨suite, attacker, hasPsk, role, generate⟩ := setting
  cases hasPsk with
  | false =>
      rw [Bool.or_false]
      cases e <;> exact ⟨rfl, samePayload, notEnded, keyedNow⟩
  | true =>
      rw [Bool.or_true]
      cases e <;> exact ⟨rfl, samePayload, notEnded, rfl⟩

/-- The instruction that encrypts a value does what `encryptAndHash` and
`append` do with it. -/
theorem matches_authEncrypt {source : Operand} {plaintext : Bytes} {machine : Machine}
    (ready : (writingStage payload).holds keyed machine)
    (value : machine.value source = .ok plaintext) :
    (writingStage payload).Matches ((writingStage payload).holds keyed) (fun _ => ())
      (machine.run setting.suite setting.generate [.authEncrypt source])
      ((encryptAndHash setting plaintext >>= append).run (writing machine)) := by
  have viewed : (writing machine).state = machine.state := rfl
  simp only [Machine.run_cons, Machine.exec, value, Machine.attempt_ok, ok_bind,
    encryptAndHash, EStateM.run_bind, EStateM.run_get, viewed]
  cases encrypted : machine.state.symmetric.encryptAndHash setting.suite plaintext with
  | error error => rfl
  | ok result =>
      have keyedStill :=
        (SymmetricState.hasKey_of_encryptAndHash encrypted).trans ready.2.2
      exact ⟨rfl, ready.1, ready.2.1, keyedStill⟩

theorem writeStatic_performs :
    Performs setting (writingStage payload) ((writingStage payload).holds keyed)
      ((writingStage payload).holds keyed) [.authEncrypt (.own .static)]
      (writeToken setting (.key .static)) fun _ => () := by
  intro machine ready
  have own := run_ownPair (writingStage payload) machine .static
  have value : machine.value (.own .static) =
      (machine.state.keyPair (.own .static)).map (·.publicKey) := rfl
  rw [writeToken, EStateM.run_bind, own]
  cases found : machine.state.keyPair (.own .static) with
  | error error =>
      simp only [Machine.run_cons, Machine.exec, value, found]
      rfl
  | ok pair =>
      rw [found] at value
      exact matches_authEncrypt ready value

theorem writeToken_performs (token : Token) :
    Performs setting (writingStage payload) ((writingStage payload).holds keyed)
      ((writingStage payload).holds (keyed || token.bearsKey setting.hasPsk))
      (token.write setting.hasPsk setting.role) (writeToken setting token)
      fun _ => () := by
  cases token with
  | key kind =>
      cases kind with
      | ephemeral => exact writeEphemeral_performs
      | static =>
          rw [Token.bearsKey, Bool.or_false]
          exact writeStatic_performs
  | dh initiator responder =>
      rw [Token.bearsKey, Bool.or_true]
      exact mixAgreement_performs initiator responder
  | psk =>
      rw [Token.bearsKey, Bool.or_true]
      exact mixSharedSecret_performs

theorem writeTokens_performs (tokens : List Token) :
    Performs setting (writingStage payload) ((writingStage payload).holds keyed)
      ((writingStage payload).holds (keyed || tokens.any (·.bearsKey setting.hasPsk)))
      (tokens.flatMap (Token.write setting.hasPsk setting.role))
      (tokens.forM (writeToken setting)) fun _ => () := by
  induction tokens generalizing keyed with
  | nil =>
      rw [List.any_nil, Bool.or_false]
      exact .nil
  | cons token rest restPerforms =>
      rw [List.any_cons, ← Bool.or_assoc, List.flatMap_cons]
      exact (writeToken_performs token).append restPerforms

theorem writePayload_performs (isFinal : Bool) :
    Performs setting (writingStage payload) ((writingStage payload).holds keyed)
      (fun machine => isFinal = false → (writingStage payload).holds keyed machine)
      ([.authEncrypt .payload] ++ if isFinal then [.split] else [])
      (writePayload setting isFinal payload) (·.frame.ending) := by
  have encrypts :
      Performs setting (writingStage payload) ((writingStage payload).holds keyed)
      ((writingStage payload).holds keyed) [.authEncrypt .payload]
      (encryptAndHash setting payload >>= append) fun _ => () := by
    intro machine ready
    exact matches_authEncrypt ready (congrArg Except.ok ready.1)
  have work : writePayload setting isFinal payload =
      (encryptAndHash setting payload >>= append) >>= fun _ => finish setting isFinal :=
    (bind_assoc _ _ _).symm
  rw [work]
  exact encrypts.append fun _ ready =>
    (matches_finish isFinal ready).imp fun _ ended => ended.2

/-- The program of the sender does what the tokens and the payload say. -/
theorem writeMessage_performs (setting : Setting) (payload : Bytes)
    (tokens : List Token) (isFinal : Bool) :
    Performs setting (writingStage payload) ((writingStage payload).holds keyed)
      (fun machine => isFinal = false →
        (writingStage payload).holds
          (keyed || tokens.any (·.bearsKey setting.hasPsk)) machine)
      (tokens.flatMap (Token.write setting.hasPsk setting.role) ++
        ([.authEncrypt .payload] ++ if isFinal then [.split] else []))
      (writeMessage setting tokens isFinal payload) (·.frame.ending) :=
  (writeTokens_performs tokens).append (writePayload_performs isFinal)

/-! ## Reading -/

/-- Machines that read a message. -/
def readingStage : Stage where
  view := reading
  holds keyed machine :=
    (0 ≤ machine.frame.position ∧ machine.frame.position ≤ machine.frame.input.length) ∧
      machine.frame.ending = none ∧ machine.state.symmetric.hasKey = keyed
  view_state _ := rfl
  view_withSymmetric _ _ := rfl
  view_ending _ _ := rfl
  hasKey_eq ready := ready.2.2
  notEnded ready := ready.2.1
  holds_withSymmetric _ ready := ⟨ready.1, ready.2.1, rfl⟩

/-- Taking bytes leaves the rest. -/
theorem run_take {machine : Machine} (ready : readingStage.holds keyed machine)
    (length : Nat) :
    match machine.take length with
    | .ok (bytes, next) =>
        (take length).run (reading machine) = .ok bytes (reading next) ∧
        readingStage.holds keyed next ∧ next.state = machine.state
    | .error stopped =>
        (take length).run (reading machine) =
          .error stopped.error (reading stopped.machine) := by
  obtain ⟨⟨nonneg, bounded⟩, notEnded, keyedNow⟩ := ready
  obtain ⟨start, atStart⟩ := Int.eq_ofNat_of_zero_le nonneg
  have left : (machine.frame.input.length : Int) - machine.frame.position =
      ((reading machine).wire.length : Nat) := by
    simp only [reading, List.length_drop]
    omega
  simp only [Machine.take, take, left, EStateM.run_bind, EStateM.run_get]
  by_cases short : (reading machine).wire.length < length
  · simp [short]
  · simp only [short, ↓reduceIte, Int.ofNat_lt, EStateM.run_bind, EStateM.run_pure,
      EStateM.run_modify]
    simp only [reading, atStart, Int.toNat_natCast, ← Int.natCast_add,
      Bytes.slice_ofNat, List.drop_drop]
    refine ⟨trivial, ⟨⟨?_, ?_⟩, notEnded, keyedNow⟩, trivial⟩
    · change 0 ≤ (start : Int) + length
      omega
    · change (start : Int) + length ≤ machine.frame.input.length
      omega

/-- A party that has just learned a public key. -/
def Knows (keyed : Bool) (kind : KeyKind) (key : Bytes) (machine : Machine) : Prop :=
  readingStage.holds keyed machine ∧ machine.value (.peer kind) = .ok key

theorem check_performs (kind : KeyKind) (key : Bytes) :
    Performs setting readingStage (Knows keyed kind key) (Knows keyed kind key)
      (Token.check setting.attacker kind) (check setting kind key) fun _ => () := by
  rintro machine ⟨ready, known⟩
  simp only [check, Token.check, EStateM.run_bind, EStateM.run_get]
  cases setting.attacker with
  | passive => exact ⟨rfl, ready, known⟩
  | active =>
      simp only [Machine.run_cons, Machine.exec, Machine.checkKey, known, ok_bind]
      by_cases zero : key.isZero
      · simp only [zero, ↓reduceIte]
        rfl
      · simp only [zero]
        cases kind with
        | ephemeral =>
            simp only [readingStage.view_state, Keys.own]
            cases machine.state.e.any (·.publicKey == key) with
            | true => rfl
            | false => exact ⟨rfl, ready, known⟩
        | static =>
            simp only [readingStage.view_state, Keys.own]
            cases machine.state.s.any (·.publicKey == key) with
            | true => rfl
            | false => exact ⟨rfl, ready, known⟩

theorem mixEphemeral_performs (key : Bytes) :
    Performs setting readingStage (Knows keyed .ephemeral key)
      (readingStage.holds (keyed || setting.hasPsk))
      (.mixHash (.peer .ephemeral) ::
        if setting.hasPsk then [.mixKey (.value (.peer .ephemeral))] else [])
      (mixEphemeral setting key) fun _ => () := by
  rintro ⟨⟨⟨s, e, rs, re, psk⟩, symmetric⟩, frame⟩ ⟨⟨inside, notEnded, keyedNow⟩, known⟩
  obtain ⟨suite, attacker, hasPsk, role, generate⟩ := setting
  cases re with
  | none => simp [Machine.value, Machine.value.known] at known
  | some held =>
      obtain rfl : held = key := by
        simpa [Machine.value, Machine.value.known] using known
      cases hasPsk with
      | false =>
          rw [Bool.or_false]
          exact ⟨rfl, inside, notEnded, keyedNow⟩
      | true =>
          rw [Bool.or_true]
          exact ⟨rfl, inside, notEnded, rfl⟩

theorem readEphemeral_performs :
    Performs setting readingStage (readingStage.holds keyed)
      (readingStage.holds (keyed || setting.hasPsk))
      (Token.read setting.suite setting.attacker setting.hasPsk keyed setting.role
        (.key .ephemeral))
      (readToken setting (.key .ephemeral)) fun _ => () := by
  intro machine ready
  have taken := run_take ready setting.suite.dh.keyLength
  rw [readToken, EStateM.run_bind]
  simp only [Token.read, List.cons_append, Machine.run_cons, Machine.exec]
  cases field : machine.take setting.suite.dh.keyLength with
  | error stopped =>
      rw [field] at taken
      rw [show readingStage.view machine = reading machine from rfl, taken]
      rfl
  | ok part =>
      obtain ⟨key, next⟩ := part
      rw [field] at taken
      obtain ⟨worked, still, -⟩ := taken
      rw [show readingStage.view machine = reading machine from rfl, worked]
      exact (check_performs .ephemeral key).append (mixEphemeral_performs key)
        (next.store (.peer .ephemeral) key) ⟨still, rfl⟩

theorem run_overhead {machine : Machine} (ready : readingStage.holds keyed machine) :
    overhead.run (reading machine) =
      .ok (if keyed then tagLength else 0) (reading machine) := by
  have now : (reading machine).state.symmetric.hasKey = keyed :=
    readingStage.hasKey_eq ready
  simp only [overhead, EStateM.run_bind, EStateM.run_get, EStateM.run_pure, now]

theorem run_decryptAndHash (machine : Machine) (message : Bytes) :
    (decryptAndHash setting message).run (reading machine) =
      match machine.state.symmetric.decryptAndHash setting.suite message with
      | .ok (plaintext, symmetric) =>
          .ok plaintext (reading (machine.withSymmetric symmetric))
      | .error halt =>
          .error halt.error (reading (machine.withSymmetric halt.state)) := by
  have viewed : (reading machine).state = machine.state := rfl
  simp only [decryptAndHash, EStateM.run_bind, EStateM.run_get, viewed]
  cases machine.state.symmetric.decryptAndHash setting.suite message with
  | error error => rfl
  | ok result => rfl

theorem readStatic_performs :
    Performs setting readingStage (readingStage.holds keyed) (readingStage.holds keyed)
      (Token.read setting.suite setting.attacker setting.hasPsk keyed setting.role
        (.key .static))
      (readToken setting (.key .static)) fun _ => () := by
  intro machine ready
  have taken :=
    run_take ready (setting.suite.dh.keyLength + if keyed then tagLength else 0)
  rw [readToken, EStateM.run_bind,
    show readingStage.view machine = reading machine from rfl, run_overhead ready]
  simp only [Token.read, Machine.run_cons, Machine.exec, EStateM.run_bind]
  cases field :
    machine.take (setting.suite.dh.keyLength + if keyed then tagLength else 0 : Nat)
      with
  | error stopped =>
      rw [field] at taken
      rw [taken]
      rfl
  | ok part =>
      obtain ⟨bytes, next⟩ := part
      rw [field] at taken
      obtain ⟨worked, still, sameState⟩ := taken
      simp only [worked, run_decryptAndHash, sameState, ok_bind]
      cases decrypted : machine.state.symmetric.decryptAndHash setting.suite bytes with
      | error error => rfl
      | ok result =>
          obtain ⟨key, symmetric⟩ := result
          have keyedStill : symmetric.hasKey = keyed :=
            (SymmetricState.hasKey_of_decryptAndHash decrypted).trans ready.2.2
          simp only [Machine.attemptSymmetric_ok, ok_bind]
          by_cases fits : key.length = setting.suite.dh.keyLength
          · simp only [fits, ↓reduceIte, ne_eq, not_true_eq_false]
            exact (check_performs .static key
              ((next.withSymmetric symmetric).store (.peer .static) key)
              ⟨⟨still.1, still.2.1, keyedStill⟩, rfl⟩).imp fun _ known => known.1
          · simp only [fits, ↓reduceIte, ne_eq, not_false_eq_true, Int.ofNat_inj]
            rfl

theorem readToken_performs (token : Token) :
    Performs setting readingStage (readingStage.holds keyed)
      (readingStage.holds (keyed || token.bearsKey setting.hasPsk))
      (token.read setting.suite setting.attacker setting.hasPsk keyed setting.role)
      (readToken setting token) fun _ => () := by
  cases token with
  | key kind =>
      cases kind with
      | ephemeral => exact readEphemeral_performs
      | static =>
          rw [Token.bearsKey, Bool.or_false]
          exact readStatic_performs
  | dh initiator responder =>
      rw [Token.bearsKey, Bool.or_true]
      exact mixAgreement_performs initiator responder
  | psk =>
      rw [Token.bearsKey, Bool.or_true]
      exact mixSharedSecret_performs

theorem readTokens_performs (tokens : List Token) :
    Performs setting readingStage (readingStage.holds keyed)
      (readingStage.holds (keyed || tokens.any (·.bearsKey setting.hasPsk)))
      (readTokenList setting.suite setting.attacker setting.hasPsk setting.role
        keyed tokens)
      (tokens.forM (readToken setting)) fun _ => () := by
  induction tokens generalizing keyed with
  | nil =>
      rw [List.any_nil, Bool.or_false]
      exact .nil
  | cons token rest restPerforms =>
      rw [List.any_cons, ← Bool.or_assoc, readTokenList]
      exact (readToken_performs token).append restPerforms

/-- Taking the rest leaves nothing. -/
theorem run_takeRest {machine : Machine} (ready : readingStage.holds keyed machine) :
    match machine.takeRest with
    | .ok (bytes, next) => takeRest.run (reading machine) = .ok bytes (reading next) ∧
        readingStage.holds keyed next ∧ next.state = machine.state
    | .error stopped =>
        takeRest.run (reading machine) =
          .error stopped.error (reading stopped.machine) := by
  have keyedNow := readingStage.hasKey_eq ready
  obtain ⟨start, atStart⟩ := Int.eq_ofNat_of_zero_le ready.1.1
  have wire :
      machine.frame.input.slice machine.frame.position machine.frame.input.length =
      (reading machine).wire := by
    have whole : machine.frame.input.length = start +
        (machine.frame.input.length - start) := by
      have bounded := ready.1.2
      omega
    rw [atStart, whole, Bytes.slice_ofNat, reading, atStart, Int.toNat_natCast]
    exact List.take_of_length_le (by simp)
  simp only [Machine.takeRest, takeRest, wire, keyedNow, EStateM.run_bind,
    run_overhead ready, EStateM.run_get]
  by_cases short : (reading machine).wire.length < if keyed then tagLength else 0
  · simp [short]
  · simp only [short, ↓reduceIte, EStateM.run_bind, EStateM.run_pure,
      EStateM.run_modify]
    refine ⟨?_, ⟨⟨Int.natCast_nonneg _, Int.le_refl _⟩, ready.2.1, ready.2.2⟩, trivial⟩
    simp [reading]

/-- The text that was read goes into the result beside the ending. -/
theorem Stage.Matches.withText {ran : Except Stopped Machine}
    {work : Work (Option Ending)} {turn : Turn} {text : Bytes}
    (same : stage.Matches (fun next => next.frame.plaintext = text ∧ after next)
      (·.frame.ending) ran (work.run turn)) :
    stage.Matches after
      (fun machine => (machine.frame.plaintext, machine.frame.ending)) ran
      ((work >>= fun ending => pure (text, ending)).run turn) := by
  rw [EStateM.run_bind]
  cases ran with
  | error stopped =>
      rw [show work.run turn = _ from same]
      rfl
  | ok next =>
      obtain ⟨worked, sameText, holdsAfter⟩ := same
      rw [worked, ← sameText]
      exact ⟨rfl, holdsAfter⟩

theorem readPayload_performs (isFinal : Bool) :
    Performs setting readingStage (readingStage.holds keyed)
      (fun machine => isFinal = false → readingStage.holds keyed machine)
      ([.authDecrypt .payload none none] ++ if isFinal then [.split] else [])
      (readPayload setting isFinal) fun machine =>
      (machine.frame.plaintext, machine.frame.ending) := by
  intro machine ready
  have taken := run_takeRest ready
  rw [readPayload, EStateM.run_bind,
    show readingStage.view machine = reading machine from rfl]
  simp only [List.cons_append, List.nil_append, Machine.run_cons, Machine.exec,
    EStateM.run_bind]
  cases field : machine.takeRest with
  | error stopped =>
      rw [field] at taken
      rw [taken]
      rfl
  | ok part =>
      obtain ⟨bytes, next⟩ := part
      rw [field] at taken
      obtain ⟨worked, still, sameState⟩ := taken
      simp only [worked, run_decryptAndHash, sameState, ok_bind]
      cases decrypted : machine.state.symmetric.decryptAndHash setting.suite bytes with
      | error error => rfl
      | ok result =>
          obtain ⟨text, symmetric⟩ := result
          have keyedStill : symmetric.hasKey = keyed :=
            (SymmetricState.hasKey_of_decryptAndHash decrypted).trans ready.2.2
          have opened :
              readingStage.holds keyed
                ((next.withSymmetric symmetric).store .payload text) :=
            ⟨still.1, still.2.1, keyedStill⟩
          exact (matches_finish isFinal opened).withText

/-- The program of the receiver does what the tokens and the payload say. -/
theorem readMessage_performs (setting : Setting) (tokens : List Token)
    (isFinal : Bool) :
    Performs setting readingStage (readingStage.holds keyed)
      (fun machine => isFinal = false →
        readingStage.holds (keyed || tokens.any (·.bearsKey setting.hasPsk)) machine)
      (readTokenList setting.suite setting.attacker setting.hasPsk setting.role keyed
        tokens ++
        ([.authDecrypt .payload none none] ++ if isFinal then [.split] else []))
      (readMessage setting tokens isFinal) fun machine =>
      (machine.frame.plaintext, machine.frame.ending) :=
  (readTokens_performs tokens).append (readPayload_performs isFinal)

/-! ## Whole messages -/

/-- What a failed run leaves, as what is left of the work. -/
def Failure.ofStopped (stopped : Stopped) : Failure where
  state := stopped.machine.state
  error := stopped.error
  drewKey := stopped.machine.frame.drewKey

variable (suite : Suite) (attacker : AttackerModel) (place : Place) (message : Message)
variable (generate : KeyGenerator) (state : HandshakeState)

/-- What a party knows when it carries out a message at a place. -/
def Setting.ofPlace (role : Role) : Setting where
  suite
  attacker
  hasPsk := place.hasPsk
  role
  generate

theorem matches_write (payload : Bytes) :
    (writingStage payload).Matches
      (fun last => place.isFinal = false →
        last.state.symmetric.hasKey =
          (state.symmetric.hasKey || message.tokens.any (·.bearsKey place.hasPsk)))
      (·.frame.ending)
      (Machine.run suite generate { state, frame := { payload } }
        (Step.ofMessage suite attacker place message).write)
      ((writeMessage (.ofPlace suite attacker place generate message.direction.sender)
        message.tokens place.isFinal payload).run { state, wire := [] }) :=
  (writeMessage_performs (.ofPlace suite attacker place generate
    message.direction.sender) payload
    message.tokens place.isFinal { state, frame := { payload } } ⟨rfl, rfl, rfl⟩).imp
    fun _ holds goesOn => (holds goesOn).2.2

theorem matches_read (keyed : state.symmetric.hasKey = place.isKeyed) (input : Bytes) :
    readingStage.Matches
      (fun last => place.isFinal = false →
        last.state.symmetric.hasKey =
          (state.symmetric.hasKey || message.tokens.any (·.bearsKey place.hasPsk)))
      (fun last => (last.frame.plaintext, last.frame.ending))
      (Machine.run suite generate { state, frame := { input } }
        (Step.ofMessage suite attacker place message).read)
      ((readMessage
        (.ofPlace suite attacker place generate message.direction.sender.other)
        message.tokens place.isFinal).run { state, wire := input }) := by
  rw [keyed]
  exact (readMessage_performs
    (.ofPlace suite attacker place generate message.direction.sender.other)
    message.tokens place.isFinal { state, frame := { input } }
    ⟨⟨Int.le_refl 0, Int.natCast_nonneg _⟩, rfl, keyed⟩).imp fun _ holds goesOn =>
      (holds goesOn).2.2

/-- Running the sender's program comes to carrying out the tokens, with the same
outcome or failure. -/
theorem write_ofMessage (payload : Bytes) :
    (state.write suite generate
      (Step.ofMessage suite attacker place message).write payload).mapError
        Failure.ofStopped =
      write (.ofPlace suite attacker place generate message.direction.sender) state
        message.tokens place.isFinal payload := by
  have same := matches_write suite attacker place message generate state payload
  simp only [HandshakeState.write, write]
  cases ran : Machine.run suite generate { state, frame := { payload } }
      (Step.ofMessage suite attacker place message).write with
  | error stopped =>
      rw [ran] at same
      rw [show EStateM.run _ _ = _ from same]
      rfl
  | ok last =>
      rw [ran] at same
      rw [same.1]
      rfl

/-- Running the receiver's program comes to carrying out the tokens, if it was compiled
for a transcript that has a key just when this one has. -/
theorem read_ofMessage (keyed : state.symmetric.hasKey = place.isKeyed)
    (input : Bytes) :
    (state.read suite generate
      (Step.ofMessage suite attacker place message).read input).mapError
        Failure.ofStopped =
      read (.ofPlace suite attacker place generate message.direction.sender.other) state
        message.tokens place.isFinal input := by
  have same := matches_read suite attacker place message generate state keyed input
  simp only [HandshakeState.read, read]
  cases ran : Machine.run suite generate { state, frame := { input } }
      (Step.ofMessage suite attacker place message).read with
  | error stopped =>
      rw [ran] at same
      rw [show EStateM.run _ _ = _ from same]
      rfl
  | ok last =>
      rw [ran] at same
      rw [same.1]
      rfl

variable {suite attacker place message generate state} {outcome : Outcome}

/-- After a message that goes on, the transcript has a key if it had one or a
token gave it one. -/
theorem hasKey_of_write {payload : Bytes}
    (written : state.write suite generate
      (Step.ofMessage suite attacker place message).write payload =
      .ok outcome) (goesOn : place.isFinal = false) :
    outcome.state.symmetric.hasKey =
      (state.symmetric.hasKey || message.tokens.any (·.bearsKey place.hasPsk)) := by
  have same := matches_write suite attacker place message generate state payload
  obtain ⟨last, ran, left⟩ := bind_eq_ok.1 written
  obtain rfl := Except.ok.inj left
  rw [ran] at same
  exact same.2 goesOn

theorem hasKey_of_read (keyed : state.symmetric.hasKey = place.isKeyed) {input : Bytes}
    (read : state.read suite generate
      (Step.ofMessage suite attacker place message).read input =
      .ok outcome) (goesOn : place.isFinal = false) :
    outcome.state.symmetric.hasKey =
      (state.symmetric.hasKey || message.tokens.any (·.bearsKey place.hasPsk)) := by
  have same := matches_read suite attacker place message generate state keyed input
  obtain ⟨last, ran, left⟩ := bind_eq_ok.1 read
  obtain rfl := Except.ok.inj left
  rw [ran] at same
  exact same.2 goesOn

end Interpreter

end Noise
