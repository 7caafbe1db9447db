import Noise.Proofs.Handshake.WellFormed
import Noise.Proofs.Handshake.Wire

/-!
# Checks of public keys

Against an active attacker a program checks every public key as soon as it has read it,
and does nothing else in addition.  Therefore it comes to what it would come to without
the checks if all keys that it reads are acceptable, and otherwise it stops.
-/

namespace Noise

/-! ## Programs with checks -/

/-- An instruction, followed by the check of the public key that it reads. -/
def Instruction.guarded (instruction : Instruction) : Program :=
  instruction ::
    (instruction.learns?.map fun kind => .checkRemoteKey (.peer kind)).toList

def Program.guarded (program : Program) : Program := program.flatMap Instruction.guarded

def Step.guarded (step : Step) : Step := { step with read := step.read.guarded }

/-- The protocol against an active attacker. -/
def Protocol.guarded (protocol : Protocol) : Protocol :=
  { protocol with attacker := .active, steps := protocol.steps.map Step.guarded }

theorem Program.guarded_append (first second : Program) :
    Program.guarded (first ++ second) = first.guarded ++ second.guarded :=
  List.flatMap_append

theorem Token.read_active (suite : Suite) (hasPsk keyed : Bool) (role : Role)
    (token : Token) :
    token.read suite .active hasPsk keyed role =
      Program.guarded (token.read suite .passive hasPsk keyed role) := by
  rcases token with (_ | _) | ⟨_, _⟩ | _
  · cases hasPsk <;> rfl
  · rfl
  · rfl
  · rfl

theorem readTokenList_active (suite : Suite) (hasPsk keyed : Bool) (role : Role)
    (tokens : List Token) :
    readTokenList suite .active hasPsk role keyed tokens =
      Program.guarded (readTokenList suite .passive hasPsk role keyed tokens) := by
  induction tokens generalizing keyed with
  | nil => rfl
  | cons token rest ih =>
      rw [readTokenList, readTokenList, Program.guarded_append, ih, Token.read_active]

theorem Step.ofMessage_active (suite : Suite) (place : Place) (message : Message) :
    ofMessage suite .active place message =
      (ofMessage suite .passive place message).guarded := by
  rw [guarded, ofMessage, ofMessage, Program.guarded_append, readTokenList_active]
  cases place.isFinal <;> rfl

/-- Compiling against an active attacker adds the checks, and nothing else. -/
theorem Protocol.compile_active (draft : Draft) (suite : Suite) :
    compile draft suite .active = (compile draft suite .passive).map guarded := by
  rw [compile, compile]
  cases draft.normalize with
  | error cause => rfl
  | ok pattern =>
      simp only [mapError_ok, ok_bind]
      cases pattern.analysis.finalIndex with
      | none => rfl
      | some finalIndex =>
          cases suite.patternName pattern.name with
          | error cause => rfl
          | ok name =>
              simp [mapError_ok, Except.map, guarded, Step.ofMessage_active,
                Function.comp_def]

/-! ## Runs with checks -/

/-- Whether a public key of the other party may be used: it is not zero, and not the
own one of its kind. -/
def Keys.Accepts (keys : Keys) (kind : KeyKind) (key : Bytes) : Prop :=
  key.isZero = false ∧ ∀ pair ∈ keys.own kind, pair.publicKey ≠ key

namespace Machine

variable (suite : Suite) (generate : KeyGenerator)

/-- The public keys that a program reads, up to an instruction that fails. -/
def learned (machine : Machine) : Program → List (KeyKind × Bytes)
  | [] => []
  | instruction :: rest =>
      match machine.exec suite generate instruction with
      | .ok next =>
          (instruction.learns?.bind fun kind =>
            (next.state.peer kind).map (kind, ·)).toList ++ learned next rest
      | .error _ => []

variable {suite generate} {machine next : Machine} {instruction : Instruction}
  {program : Program} {kind : KeyKind} {key : Bytes}

theorem learned_cons (ran : machine.exec suite generate instruction = .ok next) :
    machine.learned suite generate (instruction :: program) =
      (instruction.learns?.bind fun kind =>
        (next.state.peer kind).map (kind, ·)).toList ++
        next.learned suite generate program := by
  simp only [learned, ran]

/-- A key that was read is known. -/
theorem exists_peer (ran : machine.exec suite generate instruction = .ok next)
    (learns : instruction.learns? = some kind) :
    ∃ key, next.state.peer kind = some key := by
  apply Option.isSome_iff_exists.1
  exact (changes_of_exec ran).gives (.peer kind)
    (Instruction.mem_gives_of_learns learns)

theorem checkKey_eq (known : machine.state.peer kind = some key) :
    machine.checkKey (.peer kind) =
      if key.isZero then .error (.zeroKey (.peer kind))
      else if (machine.state.own kind).any (·.publicKey == key) then
        .error (.reflectedKey (.peer kind))
      else .ok () := by
  cases kind with
  | ephemeral =>
      simp only [Keys.peer] at known
      simp only [checkKey, value, known, value.known, ok_bind, Keys.own]
      split <;> rfl
  | static =>
      simp only [Keys.peer] at known
      simp only [checkKey, value, known, value.known, ok_bind, Keys.own]
      split <;> rfl

/-- A check lets an acceptable key pass, and refuses every other. -/
theorem exec_checkRemoteKey (suite : Suite) (generate : KeyGenerator)
    (known : machine.state.peer kind = some key) :
    machine.state.Accepts kind key ∧
        machine.exec suite generate (.checkRemoteKey (.peer kind)) = .ok machine ∨
      ¬ machine.state.Accepts kind key ∧
        ∃ error, machine.exec suite generate (.checkRemoteKey (.peer kind)) =
          .error { machine, error } ∧
          error.isOfProtocol := by
  simp only [exec, checkKey_eq known]
  cases zero : key.isZero with
  | true =>
      exact .inr
        ⟨fun accepts => Bool.noConfusion (zero.symm.trans accepts.1), .zeroKey _,
          rfl, rfl⟩
  | false =>
      cases reflected : (machine.state.own kind).any (·.publicKey == key) with
      | true =>
          obtain ⟨pair, own, same⟩ := (Option.any_eq_true ..).1 reflected
          exact .inr
            ⟨fun accepts => accepts.2 pair own (beq_iff_eq.1 same), .reflectedKey _,
              rfl, rfl⟩
      | false =>
          refine .inl ⟨⟨zero, ?_⟩, rfl⟩
          rintro pair own rfl
          have differs := (Option.any_eq_false ..).1 reflected pair own
          simp at differs

/-- A program with checks comes to what it comes to without them if all keys that it
reads are acceptable, and otherwise it stops. -/
theorem run_guarded (suite : Suite) (generate : KeyGenerator) (machine : Machine)
    (draws : .generateEphemeral ∉ program) :
    (∀ entry ∈ machine.learned suite generate program,
      machine.state.Accepts entry.1 entry.2) ∧
        machine.run suite generate program.guarded =
          machine.run suite generate program ∨
      ¬ (∀ entry ∈ machine.learned suite generate program,
        machine.state.Accepts entry.1 entry.2) ∧
        ∃ stopped, machine.run suite generate program.guarded = .error stopped ∧
          stopped.error.isOfProtocol := by
  induction program generalizing machine with
  | nil => exact .inl ⟨by simp [learned], rfl⟩
  | cons instruction rest ih =>
      rw [List.mem_cons, not_or] at draws
      have parted : Program.guarded (instruction :: rest) =
          instruction ::
            ((instruction.learns?.map fun kind =>
              .checkRemoteKey (.peer kind)).toList ++
            Program.guarded rest) := rfl
      rw [parted, run_cons, run_cons]
      cases executed : machine.exec suite generate instruction with
      | error stopped => exact .inl ⟨by simp [learned, executed], rfl⟩
      | ok middle =>
          have sameOwn : middle.state.Accepts = machine.state.Accepts := by
            funext kind key
            rw [Keys.Accepts, Keys.Accepts,
              (changes_of_exec executed).own_eq (Ne.symm draws.1)]
          have goesOn := ih middle draws.2
          rw [sameOwn] at goesOn
          rw [learned_cons executed, ok_bind, ok_bind]
          cases learns : instruction.learns? with
          | none => exact goesOn
          | some kind =>
              obtain ⟨key, known⟩ := exists_peer executed learns
              simp only [Option.map_some, Option.toList_some, List.singleton_append,
                Option.bind_some, known, List.forall_mem_cons, run_cons]
              have checked := exec_checkRemoteKey suite generate known
              rw [sameOwn] at checked
              rcases checked with ⟨accepts, passes⟩
                | ⟨rejects, error, stops, ofProtocol⟩
              · rw [passes, ok_bind]
                simp only [accepts, true_and]
                exact goesOn
              · rw [stops]
                exact .inr ⟨fun all => rejects all.1, _, rfl, ofProtocol⟩

/-- A program that succeeds has read all the keys that it is to read. -/
theorem kinds_learned (ran : machine.run suite generate program = .ok next) :
    (machine.learned suite generate program).map (·.1) =
      program.filterMap (·.learns?) := by
  induction program generalizing machine with
  | nil => rfl
  | cons instruction rest ih =>
      rw [run_cons] at ran
      obtain ⟨middle, executed, ran⟩ := bind_eq_ok.1 ran
      rw [learned_cons executed, List.map_append, ih ran, List.filterMap_cons]
      cases learns : instruction.learns? with
      | none => rfl
      | some kind =>
          obtain ⟨key, known⟩ := exists_peer executed learns
          simp [known]

end Machine

/-! ## Messages -/

namespace Token

variable (suite : Suite) (hasPsk keyed : Bool) (role : Role)

theorem read_learns (token : Token) :
    .generateEphemeral ∉ token.read suite .passive hasPsk keyed role ∧
      (token.read suite .passive hasPsk keyed role).filterMap (·.learns?) =
        token.keyKind?.toList := by
  rcases token with (_ | _) | ⟨_, _⟩ | _
  · cases hasPsk <;> simp [read, check, Instruction.learns?, keyKind?]
  · simp [read, check, Instruction.learns?, keyKind?]
  · simp [read, Instruction.learns?, keyKind?]
  · simp [read, Instruction.learns?, keyKind?]

theorem readTokenList_learns (tokens : List Token) :
    .generateEphemeral ∉ readTokenList suite .passive hasPsk role keyed tokens ∧
      (readTokenList suite .passive hasPsk role keyed tokens).filterMap (·.learns?) =
        tokens.filterMap keyKind? := by
  induction tokens generalizing keyed with
  | nil => simp [readTokenList]
  | cons token rest ih =>
      obtain ⟨draws, kinds⟩ := token.read_learns suite hasPsk keyed role
      obtain ⟨restDraws, restKinds⟩ := ih (keyed || token.bearsKey hasPsk)
      rw [readTokenList, List.mem_append, not_or, List.filterMap_append, kinds,
        restKinds]
      refine ⟨⟨draws, restDraws⟩, ?_⟩
      cases found : token.keyKind? <;> simp [found]

end Token

/-- The receiver of a message makes no key, and reads the keys that the tokens
of the message say. -/
theorem Step.read_learns (suite : Suite) (place : Place) (message : Message) :
    .generateEphemeral ∉ (ofMessage suite .passive place message).read ∧
      (ofMessage suite .passive place message).read.filterMap (·.learns?) =
        message.tokens.filterMap Token.keyKind? := by
  obtain ⟨draws, kinds⟩ := Token.readTokenList_learns suite place.hasPsk place.isKeyed
    message.direction.sender.other message.tokens
  constructor
  · cases final : place.isFinal <;> simp [ofMessage, draws, final]
  · simp only [ofMessage, List.filterMap_append, kinds]
    cases place.isFinal <;> exact List.append_nil _

namespace HandshakeState

variable (suite : Suite) (generate : KeyGenerator) (state : HandshakeState)

/-- The public keys that a message carries, as its receiver reads them. -/
def carried (program : Program) (input : Bytes) : List (KeyKind × Bytes) :=
  Machine.learned suite generate { state, frame := { input } } program

variable {suite generate state} {program : Program} {input : Bytes}

/-- Checks let a message pass if all its keys are acceptable, and reject it
otherwise. -/
theorem read_guarded (draws : .generateEphemeral ∉ program) :
    (∀ entry ∈ state.carried suite generate program input,
      state.Accepts entry.1 entry.2) ∧
        state.read suite generate program.guarded input =
          state.read suite generate program input ∨
      ¬ (∀ entry ∈ state.carried suite generate program input,
        state.Accepts entry.1 entry.2) ∧
        ∃ stopped, state.read suite generate program.guarded input = .error stopped ∧
          stopped.error.isOfProtocol := by
  rcases Machine.run_guarded suite generate { state, frame := { input } } draws with
    ⟨accepts, same⟩ | ⟨rejects, stopped, stops, ofProtocol⟩
  · exact .inl ⟨accepts, by rw [read, read, same]⟩
  · exact .inr ⟨rejects, stopped, by rw [read, stops]; rfl, ofProtocol⟩

theorem kinds_carried {outcome : Outcome}
    (read : state.read suite generate program input = .ok outcome) :
    (state.carried suite generate program input).map (·.1) =
      program.filterMap (·.learns?) := by
  obtain ⟨machine, ran, -⟩ := bind_eq_ok.1 read
  exact Machine.kinds_learned ran

end HandshakeState

end Noise
