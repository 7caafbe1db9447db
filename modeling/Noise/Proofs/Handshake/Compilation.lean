import Noise.Pattern.Catalog
import Noise.Proofs.Handshake.Refinement

/-!
# Compilation keeps the meaning of a pattern

What a compiled protocol says about its messages is read off the pattern.  In particular
the compiler foretells, message by message, whether the transcript has a key, and every
run of the protocol bears it out.  Therefore every program does what its tokens say, in
every state that a handshake reaches.
-/

namespace Noise

namespace Analysis

/-- An index search looks at the elements before the place that it finds. -/
theorem any_findIdx? {α : Type} (elements : List α) (holds : α → Bool) (index : Nat) :
    (elements.findIdx? holds).any (· < index) = (elements.take index).any holds := by
  induction elements generalizing index with
  | nil => simp
  | cons element rest ih =>
      cases index with
      | zero => simp
      | succ index =>
          rw [List.findIdx?_cons, List.take_succ_cons, List.any_cons, ← ih]
          cases holds element <;> simp [Option.any_map]

variable {messages : List Message}

/-- A pattern uses a shared secret if some message has the token. -/
theorem hasPsk_ofMessages :
    (ofMessages messages).hasPsk = messages.any (·.tokens.contains .psk) := by
  have present : ∀ message : Message,
      message.has .psk = message.tokens.contains .psk := by
    intro message
    rw [Bool.eq_iff_iff]
    simp [Row.has, Recognizable.token?]
  rw [Bool.eq_iff_iff]
  simp [hasPsk, ofMessages, messagesWith, present, List.mem_zipIdx_iff_getElem?,
    ← List.mem_iff_getElem?]

/-- The transcript has a key before a message if some earlier message has a
token that gives it one. -/
theorem isKeyedBefore_ofMessages (index : Nat) :
    (ofMessages messages).isKeyedBefore index =
      (messages.take index).any fun message =>
        message.tokens.any (·.bearsKey (ofMessages messages).hasPsk) := by
  exact any_findIdx? messages _ index

/-- A message makes the transcript have a key from the next message on if it
bears one. -/
theorem isKeyedBefore_succ {index : Nat} {message : Message}
    (there : messages[index]? = some message) :
    (ofMessages messages).isKeyedBefore (index + 1) =
      ((ofMessages messages).isKeyedBefore index ||
        message.tokens.any (·.bearsKey (ofMessages messages).hasPsk)) := by
  simp [isKeyedBefore_ofMessages, List.take_add_one, there]

/-- The final message is one of the messages. -/
theorem finalIndex_lt {finalIndex : Nat}
    (final : (ofMessages messages).finalIndex = some finalIndex) :
    finalIndex < messages.length := by
  simpa using List.mem_of_find?_eq_some final

end Analysis

/-! ## The start of a handshake -/

/-- The public keys of the pre-messages, each with the party whose key it is. -/
def Pattern.announced (pattern : Pattern) : List (Role × KeyKind) :=
  pattern.preMessages.flatMap fun preMessage =>
    preMessage.keys.kinds.map fun kind => (preMessage.direction.sender, kind)

/-- What a party hashes at the start: the prologue, and each announced key as
it knows it. -/
def Pattern.hashedAtStart (pattern : Pattern) (role : Role) : List Operand :=
  .prologue :: pattern.announced.map fun entry =>
    if entry.1 = role then .own entry.2 else .peer entry.2

theorem Pattern.initialization_eq_map (pattern : Pattern) (role : Role) :
    pattern.initialization role = (pattern.hashedAtStart role).map .mixHash := by
  simp [initialization, hashedAtStart, announced, List.map_flatMap, Function.comp_def]

namespace Machine

variable {suite : Suite} {generate : KeyGenerator} {machine next : Machine}

theorem attempt_eq_ok {α : Type} {result : Except ProtocolError α} {value : α} :
    machine.attempt result = .ok value ↔ result = .ok value := by
  cases result <;> simp

theorem attemptSymmetric_eq_ok {α : Type} {result : Except (Halt SymmetricState) α}
    {value : α} : machine.attemptSymmetric result = .ok value ↔ result = .ok value := by
  cases result <;> simp

theorem value_own {kind : KeyKind} {bytes : Bytes} :
    machine.value (.own kind) = .ok bytes ↔
      ∃ pair, machine.state.own kind = some pair ∧ pair.publicKey = bytes := by
  cases kind with
  | ephemeral =>
      cases held : machine.state.e
        <;> simp [value, HandshakeState.keyPair, Keys.own, held, Except.map]
  | static => cases held : machine.state.s
      <;> simp [value, HandshakeState.keyPair, Keys.own, held, Except.map]

theorem value_peer {kind : KeyKind} {bytes : Bytes} :
    machine.value (.peer kind) = .ok bytes ↔ machine.state.peer kind = some bytes := by
  cases kind with
  | ephemeral => cases held : machine.state.re
      <;> simp [value, value.known, Keys.peer, held]
  | static => cases held : machine.state.rs
      <;> simp [value, value.known, Keys.peer, held]

/-- No operand stands for the transcript. -/
@[simp] theorem value_withSymmetric (symmetric : SymmetricState) :
    (machine.withSymmetric symmetric).value = machine.value := by
  funext operand
  rcases operand with (_ | _) | (_ | _) | _ | _ | _ <;> rfl

/-- Hashing values changes nothing but the transcript. -/
theorem run_map_mixHash {operands : List Operand}
    (ran : machine.run suite generate (operands.map .mixHash) = .ok next) :
    ∃ values : List Bytes, operands.map machine.value = values.map .ok ∧
      next = machine.withSymmetric
        (values.foldl (·.mixHash suite) machine.state.symmetric) := by
  induction operands generalizing machine with
  | nil => exact ⟨[], rfl, (Except.ok.inj ran).symm⟩
  | cons operand rest ih =>
      rw [List.map_cons, run_cons, bind_eq_ok] at ran
      obtain ⟨hashed, first, ran⟩ := ran
      obtain ⟨data, known, first⟩ := bind_eq_ok.1 first
      rw [attempt_eq_ok] at known
      obtain rfl := Except.ok.inj first
      obtain ⟨values, others, rfl⟩ := ih ran
      rw [value_withSymmetric] at others
      exact ⟨data :: values, by simp [known, others], rfl⟩

end Machine

namespace HandshakeState

variable {protocol : Protocol} {role : Role} {prologue : Bytes} {keys : Keys}
  {state : HandshakeState}

/-- The keys at the start are those given, and the transcript holds the
hashed values. -/
theorem of_start (compiled : protocol.initialization = protocol.pattern.initialization)
    (started : start protocol role prologue keys = .ok state) :
    ∃ values : List Bytes,
      (protocol.pattern.hashedAtStart role).map
          (Machine.value { state := .ofKeys protocol keys, frame := { prologue } }) =
            values.map .ok ∧
      state = { toKeys := keys
                symmetric := values.foldl (·.mixHash protocol.suite)
                  (.start protocol.suite (Text.toBytes protocol.fullName)) } := by
  simp only [start, compiled, Pattern.initialization_eq_map] at started
  split at started
  next machine ran =>
    obtain rfl := Except.ok.inj started
    obtain ⟨values, known, rfl⟩ := Machine.run_map_mixHash ran
    exact ⟨values, known, rfl⟩
  next => cases started

theorem toKeys_of_start
    (compiled : protocol.initialization = protocol.pattern.initialization)
    (started : start protocol role prologue keys = .ok state) :
    state.toKeys = keys := by
  obtain ⟨values, -, rfl⟩ := of_start compiled started
  rfl

/-- Hashing gives a transcript no key. -/
theorem hasKey_foldl_mixHash (suite : Suite) (values : List Bytes)
    (symmetric : SymmetricState) :
    (values.foldl (·.mixHash suite) symmetric).hasKey = symmetric.hasKey := by
  induction values generalizing symmetric with
  | nil => rfl
  | cons value rest ih => exact ih _

end HandshakeState

namespace Protocol

variable {draft : Draft} {suite : Suite} {attacker : AttackerModel}
  {protocol : Protocol}

/-- A protocol whose parts are those of its pattern. -/
structure IsCompiled (protocol : Protocol) : Prop where
  analysis_eq : protocol.analysis = .ofMessages protocol.pattern.messages
  finalIndex_eq : protocol.analysis.finalIndex = some protocol.finalIndex
  initialization_eq : protocol.initialization = protocol.pattern.initialization
  steps_eq : protocol.steps =
    (protocol.pattern.messages.take (protocol.finalIndex + 1)).zipIdx.map fun entry =>
      Step.ofMessage protocol.suite protocol.attacker
        (.ofAnalysis protocol.analysis entry.2) entry.1

/-- In a one-way pattern the sender of the first step sends. -/
theorem oneWaySender_eq {first : Step} (oneWay : protocol.isOneWay = true)
    (found : protocol.steps[0]? = some first) :
    protocol.oneWaySender = some first.sender := by
  rw [oneWaySender, if_pos oneWay, List.head?_eq_getElem?, found, Option.map_some]

/-- Compilation gives such a protocol, for the suite and the model that it
was asked for. -/
theorem isCompiled_of_compile (compiled : compile draft suite attacker = .ok protocol) :
    protocol.IsCompiled ∧ protocol.suite = suite ∧ protocol.attacker = attacker := by
  simp only [compile, bind_eq_ok] at compiled
  obtain ⟨pattern, -, compiled⟩ := compiled
  cases final : pattern.analysis.finalIndex with
  | none =>
      rw [final] at compiled
      cases compiled
  | some finalIndex =>
      rw [final] at compiled
      obtain ⟨name, -, compiled⟩ := bind_eq_ok.1 compiled
      obtain rfl := Except.ok.inj compiled
      exact ⟨⟨rfl, final, rfl, rfl⟩, rfl, rfl⟩

/-- The name of a compiled protocol is the name that the pattern has. -/
theorem name_of_compile (compiled : compile draft suite attacker = .ok protocol) :
    protocol.pattern.name = .text protocol.name := by
  simp only [compile, bind_eq_ok] at compiled
  obtain ⟨pattern, -, compiled⟩ := compiled
  split at compiled
  · cases compiled
  · obtain ⟨name, named, compiled⟩ := bind_eq_ok.1 compiled
    obtain rfl := Except.ok.inj compiled
    cases held : pattern.name <;> simp only [held, Suite.patternName] at named
    case text text =>
      split at named
      · exact congrArg Value.text (Except.ok.inj named)
      · cases named
    all_goals cases named

namespace IsCompiled

variable (compiled : protocol.IsCompiled) {index : Nat}
include compiled

/-- There is a message at every index up to the final one. -/
theorem exists_message (due : index ≤ protocol.finalIndex) :
    ∃ message, protocol.pattern.messages[index]? = some message := by
  have final := compiled.finalIndex_eq
  rw [compiled.analysis_eq] at final
  have bound := Analysis.finalIndex_lt final
  exact ⟨_, List.getElem?_eq_getElem (by omega)⟩

/-- The step at an index is compiled from the message at that index. -/
theorem getElem?_steps {message : Message} (due : index ≤ protocol.finalIndex)
    (there : protocol.pattern.messages[index]? = some message) :
    protocol.steps[index]? =
      some (Step.ofMessage protocol.suite protocol.attacker
        (.ofAnalysis protocol.analysis index) message) := by
  have early : index < protocol.finalIndex + 1 := by omega
  simp [compiled.steps_eq, early, there]

theorem exists_step (due : index ≤ protocol.finalIndex) :
    ∃ step, protocol.steps[index]? = some step := by
  obtain ⟨message, there⟩ := compiled.exists_message due
  exact ⟨_, compiled.getElem?_steps due there⟩

theorem isSome_oneWaySender : protocol.oneWaySender.isSome = protocol.isOneWay := by
  cases oneWay : protocol.isOneWay with
  | false => rw [oneWaySender, oneWay]; rfl
  | true =>
      obtain ⟨first, found⟩ := compiled.exists_step (Nat.zero_le _)
      rw [oneWaySender_eq oneWay found]
      rfl

theorem hasPsk_eq :
    protocol.analysis.hasPsk =
      protocol.pattern.messages.any (·.tokens.contains .psk) := by
  rw [compiled.analysis_eq, Analysis.hasPsk_ofMessages]

theorem isKeyedBefore_succ {message : Message}
    (there : protocol.pattern.messages[index]? = some message) :
    protocol.analysis.isKeyedBefore (index + 1) =
      (protocol.analysis.isKeyedBefore index ||
        message.tokens.any (·.bearsKey protocol.analysis.hasPsk)) := by
  rw [compiled.analysis_eq, Analysis.isKeyedBefore_succ there]

/-- Every step is compiled from its message. -/
theorem eq_ofMessage {step : Step} (due : index ≤ protocol.finalIndex)
    (found : protocol.steps[index]? = some step) :
    ∃ message, protocol.pattern.messages[index]? = some message ∧
      step = Step.ofMessage protocol.suite protocol.attacker
        (.ofAnalysis protocol.analysis index)
        message := by
  obtain ⟨message, there⟩ := compiled.exists_message due
  rw [compiled.getElem?_steps due there, Option.some.injEq] at found
  exact ⟨message, there, found.symm⟩

/-- A message is final if and only if it has the final index. -/
theorem isFinal_ofAnalysis (index : Nat) :
    (Place.ofAnalysis protocol.analysis index).isFinal =
      (index == protocol.finalIndex) := by
  simp only [Place.ofAnalysis, compiled.finalIndex_eq]
  grind

theorem not_isFinal (early : index < protocol.finalIndex) :
    (Place.ofAnalysis protocol.analysis index).isFinal = false := by
  rw [compiled.isFinal_ofAnalysis]
  simp
  omega

end IsCompiled

/-! ## The states of a handshake -/

/-- The states that a role reaches before the message of an index, whatever it sends and
whatever it receives. -/
inductive Reaches (protocol : Protocol) (role : Role) :
    Nat → HandshakeState → Prop where
  | start (prologue : Bytes) (keys : Keys) {state : HandshakeState} :
      HandshakeState.start protocol role prologue keys = .ok state →
      Reaches protocol role 0 state
  | write (generate : KeyGenerator) (payload : Bytes) {index : Nat}
      {state : HandshakeState} {step : Step} {outcome : Outcome} :
      Reaches protocol role index state → protocol.steps[index]? = some step →
      step.sender = role →
      state.write protocol.suite generate step.write payload = .ok outcome →
      Reaches protocol role (index + 1) outcome.state
  | read (generate : KeyGenerator) (input : Bytes) {index : Nat}
      {state : HandshakeState} {step : Step} {outcome : Outcome} :
      Reaches protocol role index state → protocol.steps[index]? = some step →
      step.receiver = role →
      state.read protocol.suite generate step.read input = .ok outcome →
      Reaches protocol role (index + 1) outcome.state

/-- The compiler foretells whether the transcript has a key. -/
theorem Reaches.hasKey_eq (compiled : protocol.IsCompiled) {role : Role} {index : Nat}
    {state : HandshakeState} (reached : protocol.Reaches role index state)
    (due : index ≤ protocol.finalIndex) :
    state.symmetric.hasKey = protocol.analysis.isKeyedBefore index := by
  induction reached with
  | start _ _ started =>
      obtain ⟨values, -, rfl⟩ :=
        HandshakeState.of_start compiled.initialization_eq started
      rw [HandshakeState.hasKey_foldl_mixHash, compiled.analysis_eq,
        Analysis.isKeyedBefore_ofMessages]
      rfl
  | write _ _ _ found _ written ih =>
      obtain ⟨message, there, rfl⟩ := compiled.eq_ofMessage (by omega) found
      rw [Interpreter.hasKey_of_write written (compiled.not_isFinal (by omega)),
        ih (by omega), compiled.isKeyedBefore_succ there]
      rfl
  | read _ _ _ found _ read ih =>
      obtain ⟨message, there, rfl⟩ := compiled.eq_ofMessage (by omega) found
      rw [Interpreter.hasKey_of_read (ih (by omega)) read
        (compiled.not_isFinal (by omega)), ih (by omega),
        compiled.isKeyedBefore_succ there]
      rfl

/-- Compiled programs do what the tokens say.  In every state that a role reaches
before a message, its program for the message comes to what carrying out the tokens one
by one comes to: the same message or payload, the same state, transport ciphers and
hash, or the same failure. -/
theorem programs_carry_out_tokens {draft : Draft} {suite : Suite}
    {attacker : AttackerModel} {protocol : Protocol}
    (compiled : compile draft suite attacker = .ok protocol) {role : Role} {index : Nat}
    {state : HandshakeState} (reached : protocol.Reaches role index state)
    (due : index ≤ protocol.finalIndex) (generate : KeyGenerator) :
    ∃ step message,
      protocol.steps[index]? = some step ∧
      protocol.pattern.messages[index]? = some message ∧
      let setting : Interpreter.Setting :=
        { suite, attacker, role, generate
          hasPsk := protocol.pattern.messages.any (·.tokens.contains .psk) }
      let isFinal := index == protocol.finalIndex
      step.sender = message.direction.sender ∧
      (role = message.direction.sender → ∀ payload,
        (state.write suite generate step.write payload).mapError .ofStopped =
          Interpreter.write setting state message.tokens isFinal payload) ∧
      (role = message.direction.sender.other → ∀ input,
        (state.read suite generate step.read input).mapError .ofStopped =
          Interpreter.read setting state message.tokens isFinal input) := by
  obtain ⟨wellFormed, rfl, rfl⟩ := isCompiled_of_compile compiled
  obtain ⟨message, there⟩ := wellFormed.exists_message due
  have keyed := reached.hasKey_eq wellFormed due
  have psk := wellFormed.hasPsk_eq
  have final := wellFormed.isFinal_ofAnalysis index
  refine ⟨_, message, wellFormed.getElem?_steps due there, there, rfl, ?_, ?_⟩
  · rintro rfl payload
    rw [Interpreter.write_ofMessage, final, ← psk]
    rfl
  · rintro rfl input
    rw [Interpreter.read_ofMessage _ _ _ _ _ _ keyed, final, ← psk]
    rfl

open Catalog in
/-- The initiator of a pattern that sends its static key in the clear reads the answer,
in which the static key is encrypted. -/
theorem programs_carry_out_tokens_of_IX :
    ∃ protocol state step,
      compile (entry "IX" [] [send [e, s], recv [e, ee, se, s, es]]).toDraft
        {} .passive = .ok protocol ∧
      protocol.Reaches .initiator 1 state ∧ 1 ≤ protocol.finalIndex ∧
      protocol.steps[1]? = some step ∧
      ∀ input,
        (state.read {} (fun _ => default) step.read input).mapError .ofStopped =
          Interpreter.read
            { suite := {}, attacker := .passive, hasPsk := false, role := .initiator,
              generate := fun _ => default }
            state [e, ee, se, s, es] true input := by
  obtain ⟨protocol, compiled, final, messages, state, reached⟩ :
      ∃ protocol,
        compile (entry "IX" [] [send [e, s], recv [e, ee, se, s, es]]).toDraft
          {} .passive = .ok protocol ∧
        protocol.finalIndex = 1 ∧
        protocol.pattern.messages = [send [e, s], recv [e, ee, se, s, es]] ∧
        ∃ state, protocol.Reaches .initiator 1 state :=
    ⟨_, rfl, rfl, rfl, _,
      .write (fun _ => default) []
        (.start [] { s := some (.ofPrivateKey (default : PrivateKey .curve25519)) } rfl)
          rfl rfl rfl⟩
  obtain ⟨step, message, found, there, -, -, reads⟩ :=
    programs_carry_out_tokens compiled reached (by omega) fun _ => default
  rw [messages] at there reads
  rw [final] at reads
  obtain rfl : recv [e, ee, se, s, es] = message := Option.some.inj there
  exact ⟨protocol, state, step, compiled, reached, by omega, found, reads rfl⟩

end Protocol

end Noise
