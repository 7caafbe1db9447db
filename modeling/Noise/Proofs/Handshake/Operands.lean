import Noise.Proofs.Handshake.Entries

/-!
# What an instruction does with its operands

An instruction asks for the values of some operands and gives others a value.  This
module says once what it can do to the keys of a party: a key that is there stays there,
and after a program that succeeds every key that the program refers to is there.
-/

namespace Noise

/-! ## Operands of an instruction -/

namespace Instruction

/-- The operands whose values an instruction asks for. -/
def needs : Instruction → List Operand
  | .emit source | .mixHash source | .mixKeyAndHash source | .authEncrypt source
  | .checkRemoteKey source => [source]
  | .mixKey source => source.operands
  | .generateEphemeral | .parse .. | .authDecrypt .. | .split => []

/-- The kind of the public key that an instruction reads, if it reads one. -/
def learns? : Instruction → Option KeyKind
  | .parse (.peer kind) _ | .authDecrypt (.peer kind) _ _ => some kind
  | _ => none

/-- The operands that an instruction gives a value. -/
def gives (instruction : Instruction) : List Operand :=
  match instruction with
  | .generateEphemeral => [.own .ephemeral]
  | _ => (instruction.learns?.map .peer).toList

/-- The operands that an instruction compares others with, if they have a value. -/
def compares : Instruction → List Operand
  | .checkRemoteKey (.peer kind) => [.own kind]
  | _ => []

theorem mem_gives_of_learns {instruction : Instruction} {kind : KeyKind}
    (learns : instruction.learns? = some kind) : .peer kind ∈ instruction.gives := by
  cases instruction with
  | generateEphemeral => cases learns
  | _ => simp [gives, learns]

theorem needs_subset (instruction : Instruction) :
    instruction.needs ⊆ instruction.operands := by
  cases instruction with
  | emit | mixHash | mixKey | mixKeyAndHash | authEncrypt | checkRemoteKey =>
      exact List.Subset.refl _
  | generateEphemeral | parse | authDecrypt | split => exact List.nil_subset _

/-- Whether the operands are of the kinds that a compiled program has in their places:
keys of the other party are read and checked, and an agreement is between an own key and
a key of the other party. -/
def isOrdinary : Instruction → Bool
  | .parse (.peer _) _ | .authDecrypt (.peer _) _ _ | .authDecrypt .payload _ _ => true
  | .parse .. | .authDecrypt .. => false
  | .mixKey (.dh (.own _) (.peer _)) => true
  | .mixKey (.dh ..) => false
  | .checkRemoteKey (.peer _) => true
  | .checkRemoteKey _ => false
  | .generateEphemeral | .emit _ | .mixHash _ | .mixKey (.value _) | .mixKeyAndHash _
      | .authEncrypt _
  | .split => true

end Instruction

def Program.isOrdinary (program : Program) : Bool := program.all Instruction.isOrdinary

theorem Program.isOrdinary_append (first second : Program) :
    Program.isOrdinary (first ++ second) = (first.isOrdinary && second.isOrdinary) :=
  List.all_append

theorem Program.uses_append (first second : Program) (operand : Operand) :
    Program.uses (first ++ second) operand =
      (first.uses operand || second.uses operand) :=
  List.any_append

theorem Program.uses_cons (instruction : Instruction) (rest : Program)
    (operand : Operand) :
    Program.uses (instruction :: rest) operand =
      (instruction.operands.contains operand || rest.uses operand) := rfl

theorem Program.uses_iff {program : Program} {operand : Operand} :
    program.uses operand ↔ ∃ instruction ∈ program, operand ∈ instruction.operands := by
  simp [uses]

/-- The kind of the public key that a token stands for, if it stands for one. -/
def Token.keyKind? : Token → Option KeyKind
  | .key kind => some kind
  | .dh .. | .psk => none

/-- The operand that a role uses for a party's key. -/
def Role.sees (role party : Role) (kind : KeyKind) : Operand :=
  if party = role then .own kind else .peer kind

@[simp] theorem Role.sees_self (role : Role) (kind : KeyKind) :
    role.sees role kind = .own kind :=
  if_pos rfl

@[simp] theorem Role.sees_other (role : Role) (kind : KeyKind) :
    role.sees role.other kind = .peer kind :=
  if_neg role.other_ne

/-- The operands that a token stands for in the programs of a role. -/
def Token.mentions (sender role : Role) : Token → List Operand
  | .key kind => [role.sees sender kind]
  | .dh initiator responder =>
      [role.sees .initiator initiator, role.sees .responder responder]
  | .psk => [.psk]

theorem Token.eq_psk_of_mentions {sender role : Role} {token : Token}
    (mentioned : .psk ∈ token.mentions sender role) : token = .psk := by
  cases token with
  | key kind =>
      have same := List.mem_singleton.1 mentioned
      rw [Role.sees] at same
      split at same <;> cases same
  | dh initiator responder =>
      simp only [mentions, Role.sees, List.mem_cons, List.not_mem_nil,
        or_false] at mentioned
      rcases mentioned with same | same <;> split at same <;> cases same
  | psk => rfl

section Compiled

variable (suite : Suite) (attacker : AttackerModel) (hasPsk keyed : Bool) (role : Role)

theorem Token.isOrdinary_write (token : Token) :
    Program.isOrdinary (token.write hasPsk role) := by
  rcases token with (_ | _) | ⟨_, _⟩ | _ <;> cases hasPsk <;> cases role <;> rfl

theorem Token.isOrdinary_read (token : Token) :
    Program.isOrdinary (token.read suite attacker hasPsk keyed role) := by
  rcases token with (_ | _) | ⟨_, _⟩ | _ <;> cases hasPsk <;> cases role
    <;> cases attacker <;> rfl

theorem isOrdinary_writeTokens (tokens : List Token) :
    Program.isOrdinary (tokens.flatMap (Token.write hasPsk role)) := by
  induction tokens with
  | nil => rfl
  | cons token rest ih =>
      rw [List.flatMap_cons, Program.isOrdinary_append, token.isOrdinary_write, ih]
      rfl

theorem isOrdinary_readTokens (tokens : List Token) :
    Program.isOrdinary (readTokenList suite attacker hasPsk role keyed tokens) := by
  induction tokens generalizing keyed with
  | nil => rfl
  | cons token rest ih =>
      rw [readTokenList, Program.isOrdinary_append, token.isOrdinary_read, ih]
      rfl

theorem Step.programFor_sender (place : Place) {role : Role} {message : Message}
    (own : message.direction.sender = role) :
    (ofMessage suite attacker place message).programFor role =
      message.tokens.flatMap (Token.write place.hasPsk role) ++
        .authEncrypt .payload :: if place.isFinal then [.split] else [] := by
  subst own
  exact if_pos rfl

theorem Step.programFor_receiver (place : Place) {role : Role} {message : Message}
    (other : message.direction.sender = role.other) :
    (ofMessage suite attacker place message).programFor role =
      readTokenList suite attacker place.hasPsk role place.isKeyed message.tokens ++
        .authDecrypt .payload none none :: if place.isFinal then [.split] else [] := by
  have notOwn : (ofMessage suite attacker place message).sender ≠ role := by
    intro own
    exact role.other_ne (other.symm.trans own)
  rw [programFor, if_neg notOwn]
  simp only [ofMessage, other, Role.other_other]

theorem Step.isOrdinary_programFor (place : Place) (message : Message) :
    Program.isOrdinary ((ofMessage suite attacker place message).programFor role) := by
  rcases Role.eq_or_eq_other message.direction.sender role with own | other
  · rw [programFor_sender suite attacker place own, Program.isOrdinary_append,
      isOrdinary_writeTokens]
    cases place.isFinal <;> rfl
  · rw [programFor_receiver suite attacker place other, Program.isOrdinary_append,
      isOrdinary_readTokens]
    cases place.isFinal <;> rfl

variable {operand : Operand}

theorem Token.uses_write (token : Token) :
    Program.uses (token.write hasPsk role) operand ↔
      operand ∈ token.mentions role role := by
  rcases token with (_ | _) | ⟨_, _⟩ | _
  · cases hasPsk
      <;> simp [Program.uses_iff, write, mentions, Instruction.operands,
        Source.operands]
  · simp [Program.uses_iff, write, mentions, Instruction.operands]
  · cases role <;>
      simp [Program.uses_iff, write, mentions, Role.sees, Instruction.operands,
        Source.agreement, Source.operands, or_comm]
  · simp [Program.uses_iff, write, mentions, Instruction.operands]

theorem Token.uses_read (token : Token) :
    Program.uses (token.read suite attacker hasPsk keyed role) operand ↔
      operand ∈ token.mentions role.other role := by
  rcases token with (_ | _) | ⟨_, _⟩ | _
  · cases hasPsk <;> cases attacker <;>
      simp [Program.uses_iff, read, check, mentions, Instruction.operands,
        Source.operands]
  · cases attacker
      <;> simp [Program.uses_iff, read, check, mentions, Instruction.operands]
  · cases role <;>
      simp [Program.uses_iff, read, mentions, Role.sees, Instruction.operands,
        Source.agreement, Source.operands, or_comm]
  · simp [Program.uses_iff, read, mentions, Instruction.operands]

theorem uses_writeTokens (tokens : List Token) :
    Program.uses (tokens.flatMap (Token.write hasPsk role)) operand ↔
      ∃ token ∈ tokens, operand ∈ token.mentions role role := by
  induction tokens with
  | nil => simp [Program.uses]
  | cons token rest ih =>
      rw [List.flatMap_cons, Program.uses_append, Bool.or_eq_true, token.uses_write, ih]
      simp

theorem uses_readTokens (tokens : List Token) :
    Program.uses (readTokenList suite attacker hasPsk role keyed tokens) operand ↔
      ∃ token ∈ tokens, operand ∈ token.mentions role.other role := by
  induction tokens generalizing keyed with
  | nil => simp [readTokenList, Program.uses]
  | cons token rest ih =>
      rw [readTokenList, Program.uses_append, Bool.or_eq_true, token.uses_read, ih]
      simp

/-- The programs of a message refer to the payload and to what its tokens stand for. -/
theorem Step.uses_programFor (place : Place) (message : Message) :
    Program.uses ((ofMessage suite attacker place message).programFor role) operand ↔
      operand = .payload ∨ ∃ token ∈ message.tokens,
        operand ∈ token.mentions message.direction.sender role := by
  have ending : Program.uses (if place.isFinal then [.split] else []) operand =
      false := by
    cases place.isFinal <;> rfl
  rcases Role.eq_or_eq_other message.direction.sender role with own | other
  · rw [programFor_sender suite attacker place own, Program.uses_append,
      Program.uses_cons, ending, Bool.or_false, Bool.or_eq_true, uses_writeTokens, own,
      List.contains_iff_mem, or_comm]
    simp [Instruction.operands]
  · rw [programFor_receiver suite attacker place other, Program.uses_append,
      Program.uses_cons, ending, Bool.or_false, Bool.or_eq_true, uses_readTokens, other,
      List.contains_iff_mem, or_comm]
    simp [Instruction.operands]

end Compiled

/-! ## Keys that are there -/

namespace Keys

/-- Whether the key that an operand stands for is there.  Prologue and
payload always are. -/
def Holds (keys : Keys) : Operand → Prop
  | .own kind => (keys.own kind).isSome
  | .peer kind => (keys.peer kind).isSome
  | .psk => keys.psk.isSome
  | .prologue | .payload => True

/-- The keys with a public key of the other party. -/
def learn (keys : Keys) (kind : KeyKind) (key : Bytes) : Keys :=
  match kind with
  | .ephemeral => { keys with re := some key }
  | .static => { keys with rs := some key }

/-- All that an instruction can do to the keys of a party. -/
inductive Changes (dh : DhFunction) (keys : Keys) : Instruction → Keys → Prop where
  | stays {instruction : Instruction} :
      (∀ operand ∈ instruction.gives, keys.Holds operand) →
      Changes dh keys instruction keys
  | draws {pair : KeyPair} : keys.e = none → pair.dh = dh →
      Changes dh keys .generateEphemeral { keys with e := some pair }
  | learns {instruction : Instruction} {kind : KeyKind} (key : Bytes) :
      instruction.learns? = some kind →
      Changes dh keys instruction (keys.learn kind key)

variable {dh : DhFunction} {keys next : Keys} {instruction : Instruction}
  {operand : Operand}

theorem holds_learn (kind : KeyKind) (key : Bytes) :
    (keys.learn kind key).Holds (.peer kind) := by
  cases kind <;> rfl

theorem Holds.learn (holds : keys.Holds operand) (kind : KeyKind) (key : Bytes) :
    (keys.learn kind key).Holds operand := by
  cases operand with
  | own own => cases own <;> cases kind <;> exact holds
  | peer peer =>
      cases peer with
      | ephemeral =>
          cases kind with
          | ephemeral => rfl
          | static => exact holds
      | static =>
          cases kind with
          | ephemeral => exact holds
          | static => rfl
  | psk => cases kind <;> exact holds
  | prologue | payload => trivial

/-- A key that is there stays there. -/
theorem Changes.holds (changes : keys.Changes dh instruction next)
    (held : keys.Holds operand) :
    next.Holds operand := by
  cases changes with
  | stays => exact held
  | draws =>
      cases operand with
      | own kind =>
          cases kind with
          | ephemeral => rfl
          | static => exact held
      | peer | psk | prologue | payload => exact held
  | learns key => exact held.learn _ key

theorem Changes.gives (changes : keys.Changes dh instruction next) :
    ∀ operand ∈ instruction.gives, next.Holds operand := by
  intro operand given
  cases changes with
  | stays already => exact already operand given
  | draws =>
      obtain rfl := List.mem_singleton.1 given
      rfl
  | learns key learned =>
      cases instruction with
      | generateEphemeral => cases learned
      | _ =>
          simp only [Instruction.gives, learned, Option.map_some, Option.toList_some,
            List.mem_singleton] at given
          rw [given]
          exact holds_learn _ key

/-- The own keys stay as they are, unless one is made. -/
theorem Changes.own_eq (changes : keys.Changes dh instruction next)
    (draws : instruction ≠ .generateEphemeral) : next.own = keys.own := by
  cases changes with
  | stays => rfl
  | draws => exact absurd rfl draws
  | @learns _ kind key =>
      funext own
      cases kind <;> cases own <;> rfl

/-- Key pairs of a function stay such, and one that is made belongs to the
function of the suite. -/
theorem Changes.ofFunction (changes : keys.Changes dh instruction next)
    (before : ∀ kind, ∀ pair ∈ keys.own kind, pair.dh = dh) :
    ∀ kind, ∀ pair ∈ next.own kind, pair.dh = dh := by
  cases changes with
  | stays => exact before
  | draws _ made =>
      intro kind
      cases kind with
      | ephemeral =>
          rintro _ ⟨⟩
          exact made
      | static => exact before .static
  | @learns _ kind key => cases kind <;> exact before

end Keys

namespace HandshakeState

theorem keyPair_own (state : HandshakeState) (kind : KeyKind) :
    state.keyPair (.own kind) =
      match state.own kind with
      | some pair => .ok pair
      | none => .error (.notSet (.own kind)) := by
  cases kind <;> rfl

end HandshakeState

namespace Machine

variable {suite : Suite} {generate : KeyGenerator} {machine next : Machine}
  {stopped : Stopped}
  {instruction : Instruction} {program : Program} {operand : Operand} {bytes : Bytes}
  {error : ProtocolError}

/-- An operand has a value if its key is there, and otherwise it is what is missing. -/
theorem value_cases (machine : Machine) (operand : Operand) :
    machine.state.Holds operand ∧ (∃ bytes, machine.value operand = .ok bytes) ∨
      ¬ machine.state.Holds operand ∧
      machine.value operand = .error (.notSet operand) := by
  cases operand with
  | own kind =>
      simp only [value, HandshakeState.keyPair_own, Keys.Holds]
      cases machine.state.own kind with
      | none => exact .inr ⟨Bool.false_ne_true, rfl⟩
      | some pair => exact .inl ⟨rfl, pair.publicKey, rfl⟩
  | peer kind =>
      cases kind with
      | ephemeral =>
          simp only [value, Keys.Holds, Keys.peer]
          cases machine.state.re with
          | none => exact .inr ⟨Bool.false_ne_true, rfl⟩
          | some key => exact .inl ⟨rfl, key, rfl⟩
      | static =>
          simp only [value, Keys.Holds, Keys.peer]
          cases machine.state.rs with
          | none => exact .inr ⟨Bool.false_ne_true, rfl⟩
          | some key => exact .inl ⟨rfl, key, rfl⟩
  | psk =>
      simp only [value, Keys.Holds]
      cases machine.state.psk with
      | none => exact .inr ⟨Bool.false_ne_true, rfl⟩
      | some secret => exact .inl ⟨rfl, secret, rfl⟩
  | prologue => exact .inl ⟨trivial, machine.frame.prologue, rfl⟩
  | payload => exact .inl ⟨trivial, machine.frame.payload, rfl⟩

theorem holds_of_value (known : machine.value operand = .ok bytes) :
    machine.state.Holds operand := by
  rcases machine.value_cases operand with ⟨holds, -⟩ | ⟨-, missing⟩
  · exact holds
  · cases missing.symm.trans known

theorem value_eq_error (failed : machine.value operand = .error error) :
    error = .notSet operand ∧ ¬ machine.state.Holds operand := by
  rcases machine.value_cases operand with ⟨-, bytes, known⟩ | ⟨lacks, missing⟩
  · cases known.symm.trans failed
  · exact ⟨(Except.error.inj (missing.symm.trans failed)).symm, lacks⟩

theorem toKeys_store (target : Operand) (bytes : Bytes) :
    (machine.store target bytes).state.toKeys =
      match target with
      | .peer kind => machine.state.toKeys.learn kind bytes
      | _ => machine.state.toKeys := by
  rcases target with _ | (_ | _) | _ | _ | _ <;> rfl

theorem changes_of_exec (ran : machine.exec suite generate instruction = .ok next) :
    machine.state.Changes suite.dh instruction next.state.toKeys := by
  cases instruction with
  | generateEphemeral =>
      simp only [exec] at ran
      split at ran
      next pair held =>
        obtain rfl := Except.ok.inj ran
        apply Keys.Changes.stays
        intro operand given
        obtain rfl := List.mem_singleton.1 given
        exact Option.isSome_iff_exists.2 ⟨pair, held⟩
      next none =>
        obtain rfl := Except.ok.inj ran
        exact .draws none rfl
  | emit source =>
      obtain ⟨bytes, -, made⟩ := bind_eq_ok.1 ran
      obtain rfl := Except.ok.inj made
      exact .stays (List.forall_mem_nil _)
  | parse target length =>
      obtain ⟨⟨bytes, moved⟩, took, made⟩ := bind_eq_ok.1 ran
      obtain rfl := Except.ok.inj made
      rw [toKeys_store, (of_take took).2.2]
      cases target with
      | peer kind => exact .learns bytes rfl
      | own | psk | prologue | payload => exact .stays (List.forall_mem_nil _)
  | mixHash source | mixKey source | mixKeyAndHash source =>
      obtain ⟨data, -, made⟩ := bind_eq_ok.1 ran
      obtain rfl := Except.ok.inj made
      exact .stays (List.forall_mem_nil _)
  | authEncrypt source =>
      obtain ⟨plaintext, -, ran⟩ := bind_eq_ok.1 ran
      obtain ⟨⟨ciphertext, symmetric⟩, -, made⟩ := bind_eq_ok.1 ran
      obtain rfl := Except.ok.inj made
      exact .stays (List.forall_mem_nil _)
  | authDecrypt target length expected =>
      rw [exec_authDecrypt] at ran
      obtain ⟨⟨bytes, moved⟩, took, ran⟩ := bind_eq_ok.1 ran
      obtain ⟨position, rfl⟩ := of_field took
      obtain ⟨plaintext, symmetric, -, rfl⟩ := of_openField ran
      rw [toKeys_store]
      cases target with
      | peer kind => exact .learns plaintext rfl
      | own | psk | prologue | payload => exact .stays (List.forall_mem_nil _)
  | checkRemoteKey target =>
      obtain ⟨-, -, made⟩ := bind_eq_ok.1 ran
      obtain rfl := Except.ok.inj made
      exact .stays (List.forall_mem_nil _)
  | split =>
      obtain rfl := Except.ok.inj ran
      exact .stays (List.forall_mem_nil _)

/-- What no change of the keys destroys, no program destroys. -/
theorem keys_of_run {kept : Keys → Prop}
    (keeps : ∀ keys instruction next, keys.Changes suite.dh instruction next →
      kept keys → kept next)
    (ran : machine.run suite generate program = .ok next)
    (before : kept machine.state.toKeys) :
    kept next.state.toKeys := by
  induction program generalizing machine with
  | nil =>
      obtain rfl := Except.ok.inj ran
      exact before
  | cons instruction rest ih =>
      rw [run_cons] at ran
      obtain ⟨middle, executed, ran⟩ := bind_eq_ok.1 ran
      exact ih ran (keeps _ _ _ (changes_of_exec executed) before)

/-- An instruction that succeeds has found what it asks for. -/
theorem needs_of_exec (ordinary : instruction.isOrdinary)
    (ran : machine.exec suite generate instruction = .ok next) :
    ∀ operand ∈ instruction.needs, machine.state.Holds operand := by
  intro operand needed
  cases instruction with
  | emit source | mixHash source | mixKeyAndHash source | authEncrypt source =>
      obtain ⟨value, known, -⟩ := bind_eq_ok.1 ran
      obtain rfl := List.mem_singleton.1 needed
      exact holds_of_value (attempt_eq_ok.1 known)
  | checkRemoteKey target =>
      obtain ⟨⟨⟩, checked, -⟩ := bind_eq_ok.1 ran
      obtain ⟨key, known, -⟩ := bind_eq_ok.1 (attempt_eq_ok.1 checked)
      obtain rfl := List.mem_singleton.1 needed
      exact holds_of_value known
  | mixKey source =>
      obtain ⟨secret, known, -⟩ := bind_eq_ok.1 ran
      rw [attempt_eq_ok] at known
      cases source with
      | value source =>
          obtain rfl := List.mem_singleton.1 needed
          exact holds_of_value known
      | dh ownKey publicKey =>
          obtain ⟨pair, held, agreed⟩ := bind_eq_ok.1 known
          obtain ⟨key, found, -⟩ := bind_eq_ok.1 agreed
          cases ownKey with
          | own kind =>
              rcases List.mem_cons.1 needed with rfl | needed
              · apply holds_of_value
                rw [value, held]
                rfl
              · obtain rfl := List.mem_singleton.1 needed
                exact holds_of_value found
          | peer | psk | prologue | payload => cases ordinary
  | generateEphemeral | parse | authDecrypt | split => cases needed

/-- An instruction that succeeds leaves all its operands with a value. -/
theorem operands_of_exec (ordinary : instruction.isOrdinary)
    (ran : machine.exec suite generate instruction = .ok next) :
    ∀ operand ∈ instruction.operands, next.state.Holds operand := by
  intro operand used
  have changes := changes_of_exec ran
  have needed : operand ∈ instruction.needs → next.state.Holds operand := by
    intro needed
    exact changes.holds (needs_of_exec ordinary ran operand needed)
  cases instruction with
  | emit | mixHash | mixKey | mixKeyAndHash | authEncrypt | checkRemoteKey =>
      exact needed used
  | parse target length =>
      cases target with
      | peer kind => exact changes.gives operand used
      | own | psk | prologue | payload => cases ordinary
  | authDecrypt target length expected =>
      cases target with
      | peer kind => exact changes.gives operand used
      | payload =>
          obtain rfl := List.mem_singleton.1 used
          trivial
      | own | psk | prologue => cases ordinary
  | generateEphemeral | split => cases used

/-- A program that succeeds keeps the keys that are there, and leaves all its
operands with a value. -/
theorem holds_of_run (ordinary : program.isOrdinary)
    (ran : machine.run suite generate program = .ok next) :
    ∀ operand, machine.state.Holds operand ∨ program.uses operand →
      next.state.Holds operand := by
  induction program generalizing machine with
  | nil =>
      obtain rfl := Except.ok.inj ran
      rintro operand (held | ⟨⟨⟩⟩)
      exact held
  | cons instruction rest ih =>
      rw [run_cons] at ran
      obtain ⟨middle, executed, ran⟩ := bind_eq_ok.1 ran
      obtain ⟨first, later⟩ := Bool.and_eq_true_iff.1 ordinary
      intro operand held
      apply ih later ran
      rw [Program.uses_cons, Bool.or_eq_true, List.contains_iff_mem] at held
      rcases held with held | used | used
      · exact .inl ((changes_of_exec executed).holds held)
      · exact .inl (operands_of_exec first executed operand used)
      · exact .inr used

end Machine

end Noise
