import Noise.Proofs.Handshake.Operands

/-!
# Keys that a program does not touch

An instruction reads and writes the keys of its operands, and besides these only the
ephemeral key that it makes and the own key that it compares a public key with.  A key
that no instruction of a program touches can be taken away: the program comes to the
same, and the key is missing afterwards as before.
-/

namespace Noise

/-! ## Taking a key away -/

/-- The keys without the one that an operand stands for. -/
def Keys.without (operand : Operand) (keys : Keys) : Keys where
  s := if operand = .own .static then none else keys.s
  e := if operand = .own .ephemeral then none else keys.e
  rs := if operand = .peer .static then none else keys.rs
  re := if operand = .peer .ephemeral then none else keys.re
  psk := if operand = .psk then none else keys.psk

def HandshakeState.without (operand : Operand) (state : HandshakeState) :
    HandshakeState :=
  { state with toKeys := state.toKeys.without operand }

def Machine.without (operand : Operand) (machine : Machine) : Machine :=
  { machine with state := machine.state.without operand }

def Stopped.without (operand : Operand) (stopped : Stopped) : Stopped :=
  { stopped with machine := stopped.machine.without operand }

def Outcome.without (operand : Operand) (outcome : Outcome) : Outcome :=
  { outcome with state := outcome.state.without operand }

/-- The operands whose keys an instruction reads or writes. -/
def Instruction.touches (instruction : Instruction) : List Operand :=
  instruction.operands ++ instruction.gives ++ instruction.compares

/-- A result with a key taken away from what comes out, and from the machine
that has stopped. -/
def erased {α : Type} (operand : Operand) (without : α → α)
    (result : Except Stopped α) : Except Stopped α :=
  (result.map without).mapError (Stopped.without operand)

theorem erased_ok {α : Type} {operand : Operand} {without : α → α} (value : α) :
    erased operand without (.ok value) = .ok (without value) := rfl

namespace Machine

variable {suite : Suite} {generate : KeyGenerator} (machine : Machine)
  {instruction : Instruction}
  {program : Program} {operand target : Operand} {bytes : Bytes}

theorem symmetric_without :
    (machine.without operand).state.symmetric = machine.state.symmetric := rfl

theorem own_without {kind : KeyKind} (other : operand ≠ .own kind) :
    (machine.without operand).state.own kind = machine.state.own kind := by
  cases kind <;> exact if_neg other

theorem value_without (other : operand ≠ target) :
    (machine.without operand).value target = machine.value target := by
  cases target with
  | own kind =>
      simp only [value, HandshakeState.keyPair_own, own_without machine other]
  | peer kind =>
      cases kind <;>
        simp only [value, without, HandshakeState.without, Keys.without, other,
          ↓reduceIte]
  | psk =>
      simp only [value, without, HandshakeState.without, Keys.without, other,
        ↓reduceIte]
  | prologue | payload => rfl

theorem source_without {ownKind peerKind : KeyKind} (other : operand ≠ .own ownKind)
    (otherPeer : operand ≠ .peer peerKind) :
    (machine.without operand).source (.dh (.own ownKind) (.peer peerKind)) =
      machine.source (.dh (.own ownKind) (.peer peerKind)) := by
  simp only [source, HandshakeState.keyPair_own, own_without machine other,
    value_without machine otherPeer]

theorem store_without (other : operand ≠ target) (bytes : Bytes) :
    (machine.without operand).store target bytes =
      (machine.store target bytes).without operand := by
  rcases target with _ | (_ | _) | _ | _ | _
  · rfl
  · simp [store, without, HandshakeState.without, Keys.without, other]
  · simp [store, without, HandshakeState.without, Keys.without, other]
  · rfl
  · rfl
  · rfl

theorem checkKey_without {kind : KeyKind} (other : operand ≠ .peer kind)
    (otherOwn : operand ≠ .own kind) :
    (machine.without operand).checkKey (.peer kind) =
      machine.checkKey (.peer kind) := by
  have same := own_without machine otherOwn
  cases kind with
  | ephemeral =>
      simp only [Keys.own] at same
      simp only [checkKey, value_without machine other, same]
  | static =>
      simp only [Keys.own] at same
      simp only [checkKey, value_without machine other, same]

/-- What is taken from the incoming message does not depend on the keys. -/
theorem field_without (operand : Operand) (length : Option Int) :
    (machine.without operand).field length =
      erased operand (Prod.map id (Machine.without operand))
        (machine.field length) := by
  cases length with
  | some length =>
      simp only [field, take, apply_ite (erased operand _)]
      rfl
  | none =>
      simp only [field, takeRest, apply_ite (erased operand _)]
      rfl

theorem openField_without (other : operand ≠ target) (symmetric : SymmetricState)
    (expected : Option Int) :
    (machine.without operand).openField suite symmetric target expected bytes =
      erased operand (Machine.without operand)
        (machine.openField suite symmetric target expected bytes) := by
  simp only [openField]
  cases symmetric.decryptAndHash suite bytes with
  | error error => rfl
  | ok opened =>
      have stored := store_without (machine.withSymmetric opened.2) other opened.1
      cases expected with
      | none => exact congrArg Except.ok stored
      | some expected =>
          by_cases fits : opened.1.length = expected
          · simp only [attemptSymmetric_ok, ok_bind, fits, ↓reduceIte]
            exact congrArg Except.ok stored
          · simp only [attemptSymmetric_ok, ok_bind, fits, ↓reduceIte]
            rfl

/-- An instruction that does not touch a key does the same without it. -/
theorem exec_without (ordinary : instruction.isOrdinary)
    (untouched : operand ∉ instruction.touches) :
    (machine.without operand).exec suite generate instruction =
      erased operand (Machine.without operand)
        (machine.exec suite generate instruction) := by
  have other : ∀ target ∈ instruction.operands, operand ≠ target := by
    rintro target used rfl
    exact untouched (List.mem_append_left _ (List.mem_append_left _ used))
  cases instruction with
  | generateEphemeral =>
      have otherOwn : operand ≠ .own .ephemeral := by
        rintro rfl
        exact untouched (List.mem_singleton_self _)
      have same : (machine.without operand).state.e = machine.state.e :=
        own_without machine otherOwn
      simp only [exec, same]
      cases machine.state.e with
      | some pair => rfl
      | none =>
          simp [erased_ok, without, HandshakeState.without, Keys.without, otherOwn]
  | emit source | mixHash source | mixKeyAndHash source =>
      simp only [exec, value_without machine (other source (List.mem_singleton_self _))]
      cases machine.value source <;> rfl
  | parse target length =>
      have took := machine.field_without operand (some length)
      simp only [field] at took
      simp only [exec, took]
      cases machine.take length with
      | error stopped => rfl
      | ok part =>
          exact congrArg Except.ok
            (store_without part.2 (other target (List.mem_singleton_self _)) part.1)
  | mixKey source =>
      have same : (machine.without operand).source source = machine.source source := by
        cases source with
        | value source =>
            exact value_without machine (other source (List.mem_singleton_self _))
        | dh ownKey publicKey =>
            cases ownKey with
            | own ownKind =>
                cases publicKey with
                | peer peerKind =>
                    exact source_without machine (other _ (List.mem_cons_self ..))
                      (other _ (List.mem_cons_of_mem _ (List.mem_singleton_self _)))
                | own | psk | prologue | payload => cases ordinary
            | peer | psk | prologue | payload => cases ordinary
      simp only [exec, same]
      cases machine.source source <;> rfl
  | authEncrypt source =>
      simp only [exec, value_without machine (other source (List.mem_singleton_self _)),
        symmetric_without]
      cases machine.value source with
      | error error => rfl
      | ok plaintext =>
          simp only [attempt_ok, ok_bind]
          cases machine.state.symmetric.encryptAndHash suite plaintext <;> rfl
  | authDecrypt target length expected =>
      rw [exec_authDecrypt, exec_authDecrypt, field_without, symmetric_without]
      cases machine.field length with
      | error stopped => rfl
      | ok part =>
          exact openField_without part.2 (other target (List.mem_singleton_self _)) _ _
  | checkRemoteKey target =>
      cases target with
      | peer kind =>
          have otherOwn : operand ≠ .own kind := by
            rintro rfl
            exact untouched (List.mem_append_right _ (List.mem_singleton_self _))
          simp only [exec,
            checkKey_without machine (other _ (List.mem_singleton_self _)) otherOwn]
          cases machine.checkKey (.peer kind) <;> rfl
      | own | psk | prologue | payload => cases ordinary
  | split => rfl

/-- A program that does not touch a key does the same without it. -/
theorem run_without (ordinary : program.isOrdinary)
    (untouched : ∀ instruction ∈ program, operand ∉ instruction.touches) :
    (machine.without operand).run suite generate program =
      erased operand (Machine.without operand)
        (machine.run suite generate program) := by
  induction program generalizing machine with
  | nil => rfl
  | cons instruction rest ih =>
      obtain ⟨first, later⟩ := Bool.and_eq_true_iff.1 ordinary
      obtain ⟨untouchedFirst, untouchedLater⟩ := List.forall_mem_cons.1 untouched
      rw [run_cons, run_cons, exec_without machine first untouchedFirst]
      cases machine.exec suite generate instruction with
      | error stopped => rfl
      | ok middle => exact ih middle later untouchedLater

end Machine

/-! ## Compiled programs -/

section Compiled

variable (suite : Suite) (hasPsk keyed : Bool) (role : Role) {operand : Operand}

/-- An agreement touches the two keys that its token mentions. -/
theorem Token.untouched_agreement {sender : Role} {initiator responder : KeyKind}
    (unused : operand ∉ Token.mentions sender role (.dh initiator responder)) :
    ∀ instruction ∈ [Instruction.mixKey (.agreement initiator responder role)],
      operand ∉ instruction.touches := by
  intro instruction member
  obtain rfl := List.mem_singleton.1 member
  cases role with
  | initiator => exact unused
  | responder =>
      intro touched
      exact unused ((List.Perm.swap _ _ []).mem_iff.1 touched)

theorem Token.untouched_write {token : Token}
    (unused : operand ∉ token.mentions role role) :
    ∀ instruction ∈ token.write hasPsk role, operand ∉ instruction.touches := by
  rcases token with (_ | _) | ⟨_, _⟩ | _
  · cases hasPsk <;>
      simpa [write, mentions, Instruction.touches, Instruction.operands,
        Source.operands, Instruction.gives,
        Instruction.learns?, Instruction.compares] using unused
  · simpa [write, mentions, Instruction.touches, Instruction.operands,
      Instruction.gives, Instruction.learns?, Instruction.compares] using unused
  · exact untouched_agreement role unused
  · simpa [write, mentions, Instruction.touches, Instruction.operands,
      Instruction.gives, Instruction.learns?, Instruction.compares] using unused

theorem Token.untouched_read {token : Token}
    (unused : operand ∉ token.mentions role.other role) :
    ∀ instruction ∈ token.read suite .passive hasPsk keyed role,
      operand ∉ instruction.touches := by
  rcases token with (_ | _) | ⟨_, _⟩ | _
  · cases hasPsk <;>
      simpa [read, check, mentions, Instruction.touches, Instruction.operands,
        Source.operands, Instruction.gives,
        Instruction.learns?, Instruction.compares] using unused
  · simpa [read, check, mentions, Instruction.touches, Instruction.operands,
      Instruction.gives, Instruction.learns?, Instruction.compares] using unused
  · exact untouched_agreement role unused
  · simpa [read, mentions, Instruction.touches, Instruction.operands, Instruction.gives,
      Instruction.learns?, Instruction.compares] using unused

theorem untouched_writeTokens {tokens : List Token}
    (unused : ∀ token ∈ tokens, operand ∉ token.mentions role role) :
    ∀ instruction ∈ tokens.flatMap (Token.write hasPsk role),
      operand ∉ instruction.touches := by
  intro instruction member
  obtain ⟨token, among, inside⟩ := List.mem_flatMap.1 member
  exact Token.untouched_write hasPsk role (unused token among) instruction inside

theorem untouched_readTokens {tokens : List Token}
    (unused : ∀ token ∈ tokens, operand ∉ token.mentions role.other role) :
    ∀ instruction ∈ readTokenList suite .passive hasPsk role keyed tokens,
      operand ∉ instruction.touches := by
  induction tokens generalizing keyed with
  | nil => exact List.forall_mem_nil _
  | cons token rest ih =>
      obtain ⟨first, later⟩ := List.forall_mem_cons.1 unused
      rw [readTokenList, List.forall_mem_append]
      exact ⟨Token.untouched_read suite hasPsk keyed role first, ih _ later⟩

/-- Without checks, a program for a message touches no key but those that it
refers to. -/
theorem Step.untouched_programFor (place : Place) {message : Message}
    (unused : ¬ Program.uses
      ((ofMessage suite .passive place message).programFor role) operand) :
    ∀ instruction ∈ (ofMessage suite .passive place message).programFor role,
      operand ∉ instruction.touches := by
  rw [uses_programFor, not_or] at unused
  obtain ⟨noPayload, unused⟩ := unused
  have unusedTokens : ∀ token ∈ message.tokens,
      operand ∉ token.mentions message.direction.sender role := by
    intro token member mentioned
    exact unused ⟨token, member, mentioned⟩
  have ending : ∀ instruction ∈ (if place.isFinal then [.split] else [] : Program),
      operand ∉ instruction.touches := by
    cases place.isFinal
      <;> simp [Instruction.touches, Instruction.operands, Instruction.gives,
      Instruction.learns?, Instruction.compares]
  rcases Role.eq_or_eq_other message.direction.sender role with own | other
  · rw [own] at unusedTokens
    rw [programFor_sender suite .passive place own, List.forall_mem_append,
      List.forall_mem_cons]
    refine ⟨untouched_writeTokens _ role unusedTokens, ?_, ending⟩
    simpa [Instruction.touches, Instruction.operands, Instruction.gives,
      Instruction.learns?, Instruction.compares] using noPayload
  · rw [other] at unusedTokens
    rw [programFor_receiver suite .passive place other, List.forall_mem_append,
      List.forall_mem_cons]
    refine ⟨untouched_readTokens suite _ _ role unusedTokens, ?_, ending⟩
    simpa [Instruction.touches, Instruction.operands, Instruction.gives,
      Instruction.learns?, Instruction.compares] using noPayload

end Compiled

/-! ## Whole messages -/

namespace HandshakeState

variable {suite : Suite} {generate : KeyGenerator} {program : Program}
  {operand : Operand}

section Untouched

variable (ordinary : program.isOrdinary)
  (untouched : ∀ instruction ∈ program, operand ∉ instruction.touches)
include ordinary untouched

theorem write_without (state : HandshakeState) (payload : Bytes) :
    (state.without operand).write suite generate program payload =
      erased operand (Outcome.without operand)
        (state.write suite generate program payload) := by
  have same :
      Machine.run suite generate
        { state := state.without operand, frame := { payload } } program =
      erased operand (Machine.without operand)
        (Machine.run suite generate { state, frame := { payload } } program) :=
    Machine.run_without { state, frame := { payload } } ordinary untouched
  rw [write, write, same]
  cases Machine.run suite generate { state, frame := { payload } } program <;> rfl

theorem read_without (state : HandshakeState) (input : Bytes) :
    (state.without operand).read suite generate program input =
      erased operand (Outcome.without operand)
        (state.read suite generate program input) := by
  have same :
      Machine.run suite generate
        { state := state.without operand, frame := { input } } program =
      erased operand (Machine.without operand)
        (Machine.run suite generate { state, frame := { input } } program) :=
    Machine.run_without { state, frame := { input } } ordinary untouched
  rw [read, read, same]
  cases Machine.run suite generate { state, frame := { input } } program <;> rfl

end Untouched

/-- A handshake starts the same without a key that is not hashed at the start. -/
theorem start_without {protocol : Protocol} {role : Role}
    (compiled : protocol.initialization = protocol.pattern.initialization)
    (unused : ¬ (protocol.initialization role).uses operand) (prologue : Bytes)
    (keys : Keys) :
    start protocol role prologue (keys.without operand) =
      (start protocol role prologue keys).map (without operand) := by
  rw [compiled, Pattern.initialization_eq_map] at unused
  have ordinary :
      Program.isOrdinary ((protocol.pattern.hashedAtStart role).map .mixHash) := by
    simp [Program.isOrdinary, Instruction.isOrdinary]
  have untouched :
      ∀ instruction ∈ (protocol.pattern.hashedAtStart role).map Instruction.mixHash,
      operand ∉ instruction.touches := by
    intro instruction member touched
    obtain ⟨hashed, among, rfl⟩ := List.mem_map.1 member
    exact unused (Program.uses_iff.2 ⟨_, member, touched⟩)
  have same : Machine.run protocol.suite (fun _ => default)
      { state := .ofKeys protocol (keys.without operand), frame := { prologue } }
      ((protocol.pattern.hashedAtStart role).map .mixHash) =
      erased operand (Machine.without operand)
        (Machine.run protocol.suite (fun _ => default)
          { state := .ofKeys protocol keys, frame := { prologue } }
          ((protocol.pattern.hashedAtStart role).map .mixHash)) :=
    Machine.run_without { state := .ofKeys protocol keys, frame := { prologue } }
      ordinary untouched
  simp only [start, compiled, Pattern.initialization_eq_map, same]
  cases Machine.run protocol.suite (fun _ => default)
    { state := .ofKeys protocol keys, frame := { prologue } }
    ((protocol.pattern.hashedAtStart role).map .mixHash) <;> rfl

end HandshakeState

end Noise
