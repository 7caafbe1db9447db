import Noise.Proofs.Handshake.Entries

/-!
# What a message takes in and what goes over the wire

The two programs of a message take in entries of the same kinds in the same order,
whichever party runs them.  What is hashed is, byte for byte, what goes over the wire.
-/

namespace Noise

/-! ## Both sides of a message take in the same kinds of entries -/

/-- What a program does with the transcript before any split. -/
def Program.Mixes (program : Program) (mixings : List Mixing) : Prop :=
  .split ∉ program ∧ program.filterMap (·.mixing?) = mixings

theorem Program.Mixes.append {first second : Program} {mixings others : List Mixing}
    (firstMixes : first.Mixes mixings) (secondMixes : second.Mixes others) :
    Program.Mixes (first ++ second) (mixings ++ others) := by
  constructor
  · rw [List.mem_append, not_or]
    exact ⟨firstMixes.1, secondMixes.1⟩
  · rw [List.filterMap_append, firstMixes.2, secondMixes.2]

/-- What a token does with the transcript. -/
def Token.mixings (hasPsk : Bool) : Token → List Mixing
  | .key .ephemeral => .hash :: if hasPsk then [.key] else []
  | .key .static => [.hash]
  | .dh .. => [.key]
  | .psk => [.keyAndHash]

/-- What a message does with the transcript: its tokens in order, and then
its payload. -/
def mixingsOf (hasPsk : Bool) (tokens : List Token) : List Mixing :=
  tokens.flatMap (Token.mixings hasPsk) ++ [.hash]

/-- A token that bears a key gives one secret. -/
theorem countP_mixingsOf (hasPsk : Bool) (tokens : List Token) :
    (mixingsOf hasPsk tokens).countP (· ≠ .hash) =
      tokens.countP (·.bearsKey hasPsk) := by
  have ofToken : ∀ token : Token,
      (token.mixings hasPsk).countP (· ≠ .hash) =
        if token.bearsKey hasPsk then 1 else 0 := by
    intro token
    rcases token with (_ | _) | ⟨_, _⟩ | _ <;> cases hasPsk <;> rfl
  induction tokens with
  | nil => rfl
  | cons token rest ih =>
      rw [mixingsOf, List.flatMap_cons, List.append_assoc, List.countP_append, ofToken,
        List.countP_cons, Nat.add_comm]
      exact congrArg (· + _) ih

section Sides

variable (suite : Suite) (attacker : AttackerModel) (hasPsk keyed : Bool) (role : Role)

theorem Token.write_mixes (token : Token) :
    Program.Mixes (token.write hasPsk role) (token.mixings hasPsk) := by
  rcases token with (_ | _) | ⟨_, _⟩ | _ <;> cases hasPsk
    <;> exact ⟨by simp [write], rfl⟩

theorem Token.read_mixes (token : Token) :
    Program.Mixes (token.read suite attacker hasPsk keyed role)
      (token.mixings hasPsk) := by
  rcases token with (_ | _) | ⟨_, _⟩ | _ <;> cases hasPsk <;> cases attacker <;>
    exact ⟨by simp [read, check], rfl⟩

theorem writeTokens_mixes (tokens : List Token) :
    Program.Mixes (tokens.flatMap (Token.write hasPsk role))
      (tokens.flatMap (Token.mixings hasPsk)) := by
  induction tokens with
  | nil => exact ⟨List.not_mem_nil, rfl⟩
  | cons token rest ih => exact (token.write_mixes hasPsk role).append ih

theorem readTokens_mixes (tokens : List Token) :
    Program.Mixes (readTokenList suite attacker hasPsk role keyed tokens)
      (tokens.flatMap (Token.mixings hasPsk)) := by
  induction tokens generalizing keyed with
  | nil => exact ⟨List.not_mem_nil, rfl⟩
  | cons token rest ih =>
      exact (token.read_mixes suite attacker hasPsk keyed role).append (ih _)

end Sides

/-! ## What is hashed is what goes over the wire -/

/-- The hashed data, which goes over the wire. -/
def Entry.wire (entries : List Entry) : Bytes := (entries.filterMap Entry.data?).flatten

theorem Entry.wire_append (entries others : List Entry) :
    wire (entries ++ others) = wire entries ++ wire others := by
  simp [wire, List.filterMap_append]

theorem Entry.wire_eq_of_data {entries others : List Entry}
    (same : entries.map data? = others.map data?) : wire entries = wire others := by
  have kept : ∀ entries : List Entry,
      entries.filterMap data? = (entries.map data?).filterMap id := by
    intro entries
    rw [List.filterMap_map]
    rfl
  rw [wire, wire, kept, kept, same]

variable {suite : Suite} {generate : KeyGenerator} {machine next : Machine}
  {bytes : Bytes}

/-- Secrets do not go over the wire. -/
theorem Machine.wire_of_secret {instruction : Instruction}
    (executed : machine.exec suite generate instruction = .ok next)
    (goesOn : instruction ≠ .split) (secret : instruction.mixing? ≠ some .hash) :
    Entry.wire (machine.transcript suite generate [instruction]) = [] := by
  obtain ⟨-, mixing, -⟩ := of_exec executed goesOn
  rw [transcript_cons executed]
  cases taken : machine.taken suite instruction with
  | none => rfl
  | some entry =>
      rw [taken] at mixing
      obtain ⟨kind, bytes⟩ := entry
      cases kind with
      | hash => exact absurd mixing.symm secret
      | key | keyAndHash => rfl

theorem Machine.of_mixKey {source : Source}
    (ran : machine.run suite generate [.mixKey source] = .ok next) :
    next.frame = machine.frame ∧
    Entry.wire (machine.transcript suite generate [.mixKey source]) = [] := by
  obtain ⟨after, executed, ended⟩ := bind_eq_ok.1 ran
  obtain rfl := Except.ok.inj ended
  refine ⟨?_, wire_of_secret executed (by simp) (by simp [Instruction.mixing?])⟩
  obtain ⟨secret, -, made⟩ := bind_eq_ok.1 executed
  obtain rfl := Except.ok.inj made
  rfl

theorem Machine.of_mixKeyAndHash {source : Operand}
    (ran : machine.run suite generate [.mixKeyAndHash source] = .ok next) :
    next.frame = machine.frame ∧
      Entry.wire (machine.transcript suite generate [.mixKeyAndHash source]) = [] := by
  obtain ⟨after, executed, ended⟩ := bind_eq_ok.1 ran
  obtain rfl := Except.ok.inj ended
  refine ⟨?_, wire_of_secret executed (by simp) (by simp [Instruction.mixing?])⟩
  obtain ⟨secret, -, made⟩ := bind_eq_ok.1 executed
  obtain rfl := Except.ok.inj made
  rfl

/-- A program that writes exactly what it hashes. -/
def Program.Writes (suite : Suite) (generate : KeyGenerator)
    (program : Program) : Prop :=
  ∀ machine next : Machine, machine.run suite generate program = .ok next →
    next.frame.output =
      machine.frame.output ++ Entry.wire (machine.transcript suite generate program)

theorem Program.Writes.append {first second : Program}
    (firstWrites : first.Writes suite generate)
    (secondWrites : second.Writes suite generate) :
    Program.Writes suite generate (first ++ second) := by
  intro machine next ran
  rw [Machine.run_append] at ran
  obtain ⟨middle, firstRan, secondRan⟩ := bind_eq_ok.1 ran
  rw [Machine.transcript_append firstRan, Entry.wire_append, secondWrites _ _ secondRan,
    firstWrites _ _ firstRan, List.append_assoc]

theorem authEncrypt_writes (source : Operand) :
    Program.Writes suite generate [.authEncrypt source] := by
  intro machine next ran
  obtain ⟨after, executed, ended⟩ := bind_eq_ok.1 ran
  obtain rfl := Except.ok.inj ended
  rw [Machine.transcript_cons executed]
  obtain ⟨plaintext, known, ran⟩ := bind_eq_ok.1 executed
  obtain ⟨⟨ciphertext, symmetric⟩, encrypted, made⟩ := bind_eq_ok.1 ran
  rw [Machine.attempt_eq_ok] at known
  rw [Machine.attemptSymmetric_eq_ok] at encrypted
  obtain rfl := Except.ok.inj made
  simp [Machine.taken, known, encrypted, Except.toOption, Machine.transcript,
    Entry.wire, Entry.data?, Machine.emit, Machine.withSymmetric]

theorem Token.writes (hasPsk : Bool) (role : Role) (token : Token) :
    Program.Writes suite generate (token.write hasPsk role) := by
  cases token with
  | key kind =>
      cases kind with
      | ephemeral =>
          rintro ⟨⟨⟨s, e, rs, re, psk⟩, symmetric⟩, frame⟩ next ran
          cases hasPsk <;> cases e <;> obtain rfl := Except.ok.inj ran <;>
            exact congrArg (frame.output ++ ·) (List.append_nil _).symm
      | static => exact authEncrypt_writes _
  | dh initiator responder =>
      intro machine next ran
      obtain ⟨sameFrame, nothing⟩ := Machine.of_mixKey ran
      rw [write, nothing, sameFrame, List.append_nil]
  | psk =>
      intro machine next ran
      obtain ⟨sameFrame, nothing⟩ := Machine.of_mixKeyAndHash ran
      rw [write, nothing, sameFrame, List.append_nil]

theorem writeTokens_write (hasPsk : Bool) (role : Role) (tokens : List Token) :
    Program.Writes suite generate (tokens.flatMap (Token.write hasPsk role)) := by
  induction tokens with
  | nil =>
      intro machine next ran
      obtain rfl := Except.ok.inj ran
      exact (List.append_nil _).symm
  | cons token rest ih => exact (token.writes hasPsk role).append ih

namespace Machine

/-- The part of the incoming message that has not been taken. -/
def unread (machine : Machine) : Bytes :=
  machine.frame.input.drop machine.frame.position.toNat

def Inside (machine : Machine) : Prop :=
  0 ≤ machine.frame.position ∧ machine.frame.position ≤ machine.frame.input.length

theorem unread_of_take {length : Nat} (inside : machine.Inside)
    (took : machine.take length = .ok (bytes, next)) :
    next.Inside ∧ machine.unread = bytes ++ next.unread := by
  obtain ⟨nonneg, bounded⟩ := inside
  obtain ⟨start, atStart⟩ := Int.eq_ofNat_of_zero_le nonneg
  obtain ⟨enough, rfl, rfl⟩ := of_take took
  rw [atStart] at enough
  constructor
  · simp only [Inside, atStart]
    omega
  · simp only [unread, atStart, Int.toNat_natCast, ← Int.natCast_add, Bytes.slice_ofNat]
    rw [← List.drop_drop, List.take_append_drop]

theorem unread_of_takeRest (inside : machine.Inside)
    (took : machine.takeRest = .ok (bytes, next)) :
    machine.unread = bytes := by
  obtain ⟨nonneg, bounded⟩ := inside
  obtain ⟨start, atStart⟩ := Int.eq_ofNat_of_zero_le nonneg
  obtain ⟨rfl, -⟩ := of_takeRest took
  have whole : machine.frame.input.length = start +
      (machine.frame.input.length - start) := by omega
  simp only [unread, atStart, Int.toNat_natCast]
  rw [whole, Bytes.slice_ofNat]
  exact (List.take_of_length_le (by simp)).symm

theorem unread_store (symmetric : SymmetricState) (target : Operand) (bytes : Bytes) :
    ((machine.withSymmetric symmetric).store target bytes).unread = machine.unread := by
  rcases target with (_ | _) | (_ | _) | _ | _ | _ <;> rfl

theorem inside_store (symmetric : SymmetricState) (target : Operand) (bytes : Bytes) :
    ((machine.withSymmetric symmetric).store target bytes).Inside ↔ machine.Inside := by
  rcases target with (_ | _) | (_ | _) | _ | _ | _ <;> rfl

/-- A decryption hashes the field that it takes. -/
theorem of_authDecrypt {target : Operand} {length expected : Option Int}
    (ran : machine.run suite generate [.authDecrypt target length expected] =
      .ok next) :
    ∃ bytes moved, machine.field length = .ok (bytes, moved) ∧
      Entry.wire (machine.transcript suite generate
        [.authDecrypt target length expected]) = bytes ∧
      next.unread = moved.unread ∧ (next.Inside ↔ moved.Inside) := by
  obtain ⟨after, executed, ended⟩ := bind_eq_ok.1 ran
  obtain rfl := Except.ok.inj ended
  rw [transcript_cons executed]
  rw [exec_authDecrypt] at executed
  obtain ⟨⟨bytes, moved⟩, took, executed⟩ := bind_eq_ok.1 executed
  obtain ⟨plaintext, symmetric, decrypted, rfl⟩ := of_openField executed
  refine ⟨bytes, moved, took, ?_, unread_store .., inside_store ..⟩
  simp [taken, took, decrypted, Except.toOption, transcript, Entry.wire, Entry.data?]

/-- A check that succeeds leaves everything as it is. -/
theorem of_check {attacker : AttackerModel} {kind : KeyKind}
    (ran : machine.run suite generate (Token.check attacker kind) = .ok next) :
    next = machine ∧ machine.transcript suite generate (Token.check attacker kind) =
      [] := by
  cases attacker with
  | passive => exact ⟨(Except.ok.inj ran).symm, rfl⟩
  | active =>
      obtain ⟨after, executed, ended⟩ := bind_eq_ok.1 ran
      obtain rfl := Except.ok.inj ended
      have entries :
          machine.transcript suite generate (Token.check .active kind) = [] :=
        transcript_cons executed
      obtain ⟨-, -, made⟩ := bind_eq_ok.1 executed
      exact ⟨(Except.ok.inj made).symm, entries⟩

end Machine

/-- A program that hashes exactly what it takes from the incoming message. -/
def Program.Reads (suite : Suite) (generate : KeyGenerator)
    (program : Program) : Prop :=
  ∀ machine next : Machine, machine.Inside →
    machine.run suite generate program = .ok next →
    next.Inside ∧
      machine.unread = Entry.wire (machine.transcript suite generate program) ++
        next.unread

theorem Program.Reads.append {first second : Program}
    (firstReads : first.Reads suite generate)
    (secondReads : second.Reads suite generate) :
    Program.Reads suite generate (first ++ second) := by
  intro machine next inside ran
  rw [Machine.run_append] at ran
  obtain ⟨middle, firstRan, secondRan⟩ := bind_eq_ok.1 ran
  obtain ⟨stillInside, firstUnread⟩ := firstReads _ _ inside firstRan
  obtain ⟨insideAfter, secondUnread⟩ := secondReads _ _ stillInside secondRan
  refine ⟨insideAfter, ?_⟩
  rw [Machine.transcript_append firstRan, Entry.wire_append, firstUnread, secondUnread,
    List.append_assoc]

/-- A program that takes nothing and hashes nothing. -/
theorem Program.Reads.of_sameFrame {program : Program}
    (silent : ∀ {machine next : Machine},
      machine.run suite generate program = .ok next →
      next.frame = machine.frame ∧
      Entry.wire (machine.transcript suite generate program) = []) :
    program.Reads suite generate := by
  intro machine next inside ran
  obtain ⟨sameFrame, nothing⟩ := silent ran
  constructor
  · rw [Machine.Inside, sameFrame]
    exact inside
  · rw [nothing, Machine.unread, Machine.unread, sameFrame, List.nil_append]

theorem check_reads (attacker : AttackerModel) (kind : KeyKind) :
    Program.Reads suite generate (Token.check attacker kind) := by
  apply Program.Reads.of_sameFrame
  intro machine next ran
  obtain ⟨rfl, nothing⟩ := Machine.of_check ran
  exact ⟨rfl, by rw [nothing]; rfl⟩

theorem authDecrypt_reads (target : Operand) (length : Nat) (expected : Option Int) :
    Program.Reads suite generate [.authDecrypt target (some length) expected] := by
  intro machine next inside ran
  obtain ⟨bytes, moved, took, wire, sameUnread, sameInside⟩ :=
    Machine.of_authDecrypt ran
  obtain ⟨stillInside, unread⟩ := Machine.unread_of_take inside took
  rw [wire, sameUnread, sameInside]
  exact ⟨stillInside, unread⟩

theorem readEphemeral_reads (attacker : AttackerModel) (hasPsk keyed : Bool)
    (role : Role) :
    Program.Reads suite generate
      (Token.read suite attacker hasPsk keyed role (.key .ephemeral)) := by
  intro machine next inside ran
  simp only [Token.read, List.cons_append, Machine.run_cons] at ran ⊢
  obtain ⟨stored, parsed, ran⟩ := bind_eq_ok.1 ran
  rw [Machine.transcript_cons parsed]
  obtain ⟨⟨key, moved⟩, took, made⟩ := bind_eq_ok.1 parsed
  obtain rfl := Except.ok.inj made
  obtain ⟨insideStill, unread⟩ := Machine.unread_of_take inside took
  rw [Machine.run_append] at ran
  obtain ⟨checked, checks, ran⟩ := bind_eq_ok.1 ran
  obtain ⟨rfl, nothing⟩ := Machine.of_check checks
  rw [Machine.transcript_append checks, nothing, unread]
  -- The key is stored before it is hashed; what is hashed is the stored key.
  cases hasPsk <;> obtain rfl := Except.ok.inj ran <;>
    exact ⟨insideStill, congrArg (· ++ moved.unread) (List.append_nil _).symm⟩

theorem Token.reads (attacker : AttackerModel) (hasPsk keyed : Bool) (role : Role)
    (token : Token) :
    Program.Reads suite generate (token.read suite attacker hasPsk keyed role) := by
  cases token with
  | key kind =>
      cases kind with
      | ephemeral => exact readEphemeral_reads attacker hasPsk keyed role
      | static => exact (authDecrypt_reads _ _ _).append (check_reads attacker .static)
  | dh initiator responder => exact .of_sameFrame Machine.of_mixKey
  | psk => exact .of_sameFrame Machine.of_mixKeyAndHash

theorem readTokens_read (attacker : AttackerModel) (hasPsk keyed : Bool) (role : Role)
    (tokens : List Token) :
    Program.Reads suite generate
      (readTokenList suite attacker hasPsk role keyed tokens) := by
  induction tokens generalizing keyed with
  | nil =>
      apply Program.Reads.of_sameFrame
      intro machine next ran
      obtain rfl := Except.ok.inj ran
      exact ⟨rfl, rfl⟩
  | cons token rest ih => exact (token.reads attacker hasPsk keyed role).append (ih _)

/-! ## Whole messages -/

/-- A message that is carried out takes in entries of the kinds that its tokens call
for, puts their hashed data on the wire, and leaves the transcript that they make, or
what a split makes of it. -/
structure HandshakeState.Carries (suite : Suite) (place : Place) (tokens : List Token)
    (state : HandshakeState) (entries : List Entry) (wire : Bytes) (outcome : Outcome) :
    Prop where
  mixings : entries.map (·.mixing) = mixingsOf place.hasPsk tokens
  wire_eq : Entry.wire entries = wire
  ending : outcome.ending =
    if place.isFinal
    then some ((entries.foldl (·.mix suite) state.symmetric.chain).ending suite)
    else none
  chain : place.isFinal = false →
    outcome.state.symmetric.chain = entries.foldl (·.mix suite) state.symmetric.chain

/-- The split at the end takes nothing in. -/
theorem Machine.of_run_split {body : Program} {mixings : List Mixing} {isFinal : Bool}
    {last : Machine} (mixes : body.Mixes mixings) (fresh : machine.frame.ending = none)
    (ran : machine.run suite generate (body ++ if isFinal then [.split] else []) =
      .ok last) :
    ∃ middle, machine.run suite generate body = .ok middle ∧
      last.frame.output = middle.frame.output ∧
      machine.transcript suite generate (body ++ if isFinal then [.split] else []) =
        machine.transcript suite generate body ∧
      (machine.transcript suite generate body).map (·.mixing) = mixings ∧
      let chain :=
        (machine.transcript suite generate body).foldl
          (·.mix suite) machine.state.symmetric.chain
      last.frame.ending = (if isFinal then some (chain.ending suite) else none) ∧
      (isFinal = false → last.state.symmetric.chain = chain) := by
  rw [run_append] at ran
  obtain ⟨middle, bodyRan, ran⟩ := bind_eq_ok.1 ran
  obtain ⟨chain, mixing, ending⟩ := of_run bodyRan mixes.1
  rw [transcript_append bodyRan]
  cases isFinal with
  | false =>
      obtain rfl := Except.ok.inj ran
      exact ⟨middle, bodyRan, rfl, List.append_nil _, mixing.trans mixes.2,
        ending.trans fresh, fun _ => chain⟩
  | true =>
      obtain rfl := Except.ok.inj ran
      refine ⟨middle, bodyRan, rfl, List.append_nil _, mixing.trans mixes.2, ?_,
        by simp⟩
      exact congrArg (fun chain => some (Chain.ending suite chain)) chain

namespace HandshakeState

variable {attacker : AttackerModel} {place : Place} {message : Message}
  {state : HandshakeState} {outcome : Outcome}

theorem carries_of_write {payload : Bytes}
    (written : state.write suite generate
      (Step.ofMessage suite attacker place message).write payload = .ok outcome) :
    state.Carries suite place message.tokens
      (Machine.transcript suite generate { state, frame := { payload } }
        (Step.ofMessage suite attacker place message).write)
      outcome.message outcome := by
  obtain ⟨last, ran, left⟩ := bind_eq_ok.1 written
  obtain rfl := Except.ok.inj left
  simp only [Step.ofMessage] at ran ⊢
  rw [List.append_cons] at ran ⊢
  obtain ⟨middle, bodyRan, sameOutput, sameEntries, mixings, ending, chain⟩ :=
    Machine.of_run_split ((writeTokens_mixes _ _ _).append ⟨by simp, rfl⟩) rfl ran
  rw [sameEntries]
  refine ⟨mixings, ?_, ending, chain⟩
  have written :=
    (writeTokens_write _ _ _).append (authEncrypt_writes .payload) _ _ bodyRan
  rw [sameOutput, written]
  rfl

theorem carries_of_read {input : Bytes}
    (read : state.read suite generate
      (Step.ofMessage suite attacker place message).read input = .ok outcome) :
    state.Carries suite place message.tokens
      (Machine.transcript suite generate { state, frame := { input } }
        (Step.ofMessage suite attacker place message).read) input outcome := by
  obtain ⟨last, ran, left⟩ := bind_eq_ok.1 read
  obtain rfl := Except.ok.inj left
  simp only [Step.ofMessage] at ran ⊢
  rw [List.append_cons] at ran ⊢
  obtain ⟨middle, bodyRan, -, sameEntries, mixings, ending, chain⟩ :=
    Machine.of_run_split ((readTokens_mixes _ _ _ _ _ _).append ⟨by simp, rfl⟩) rfl ran
  rw [sameEntries]
  refine ⟨mixings, ?_, ending, chain⟩
  -- The payload takes all that the tokens leave.
  rw [Machine.run_append] at bodyRan
  obtain ⟨before, tokensRan, payloadRan⟩ := bind_eq_ok.1 bodyRan
  obtain ⟨inside, unread⟩ :=
    readTokens_read _ _ _ _ _ _ _ ⟨Int.le_refl 0, Int.natCast_nonneg _⟩ tokensRan
  obtain ⟨bytes, moved, took, wire, -⟩ := Machine.of_authDecrypt payloadRan
  rw [Machine.transcript_append tokensRan, Entry.wire_append, wire,
    ← Machine.unread_of_takeRest inside took, ← unread]
  rfl

end HandshakeState

/-- Hashing values takes each of them in. -/
theorem Machine.transcript_map_mixHash {operands : List Operand} {values : List Bytes}
    (known : operands.map machine.value = values.map .ok) :
    machine.transcript suite generate (operands.map .mixHash) =
      values.map (⟨.hash, ·⟩) := by
  induction operands generalizing machine values with
  | nil =>
      obtain rfl : values = [] := by simpa using known.symm
      rfl
  | cons operand rest ih =>
      cases values with
      | nil => simp at known
      | cons value values =>
          simp only [List.map_cons, List.cons.injEq] at known ⊢
          have executed : machine.exec suite generate (.mixHash operand) =
              .ok (machine.withSymmetric
                (machine.state.symmetric.mixHash suite value)) := by
            simp [exec, known.1]
          rw [transcript_cons executed, ih (by rw [value_withSymmetric]; exact known.2)]
          simp [taken, known.1, Except.toOption]

end Noise
