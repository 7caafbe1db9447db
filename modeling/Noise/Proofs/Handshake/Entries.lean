import Noise.Proofs.Derivation
import Noise.Proofs.Handshake.Compilation

/-!
# What a transcript takes in

A transcript takes in bytes one after the other: data that is hashed, secrets that go
into the chaining key, or secrets that go into both.  Its hash and its chaining key are
determined by these entries.  This module reads the entries off the run of a program.
-/

namespace Noise

/-- What a transcript does with bytes. -/
inductive Mixing where
  | hash
  | key
  | keyAndHash
deriving DecidableEq, Repr

/-- Bytes that a transcript takes in. -/
structure Entry where
  mixing : Mixing
  bytes : Bytes
deriving DecidableEq, Repr

namespace Entry

/-- Data that is hashed as it is. -/
def data? (entry : Entry) : Option Bytes :=
  match entry.mixing with
  | .hash => some entry.bytes
  | .key | .keyAndHash => none

/-- Key material. -/
def secret? (entry : Entry) : Option Bytes :=
  match entry.mixing with
  | .hash => none
  | .key | .keyAndHash => some entry.bytes

end Entry

/-- The hash and the chaining key of a transcript. -/
structure Chain where
  h : Bytes
  ck : Bytes
deriving DecidableEq, Repr

def SymmetricState.chain (state : SymmetricState) : Chain :=
  { h := state.h, ck := state.ck }

namespace Suite

def absorb (suite : Suite) (h data : Bytes) : Bytes := suite.hash.digest (h ++ data)

/-- The first output of a derivation. -/
def derive (suite : Suite) (ck secret : Bytes) : Bytes :=
  (suite.hash.hkdf ck secret 2).get 0

end Suite

namespace Chain

variable (suite : Suite)

/-- What an entry gives the hash function after the hash so far.  With a shared secret,
that is an output of the derivation. -/
def hashed (chain : Chain) (entry : Entry) : Option Bytes :=
  match entry.mixing with
  | .hash => some entry.bytes
  | .key => none
  | .keyAndHash => some ((suite.hash.hkdf chain.ck entry.bytes 3).get 1)

def mix (chain : Chain) (entry : Entry) : Chain where
  h := (chain.hashed suite entry).elim chain.h (suite.absorb chain.h)
  ck := entry.secret?.elim chain.ck (suite.derive chain.ck)

/-- What a split makes of a transcript. -/
def ending (chain : Chain) : Ending where
  handshakeHash := chain.h
  first := .ofKey (some ((suite.derive chain.ck []).take keyLength))
  second := .ofKey (some (((suite.hash.hkdf chain.ck [] 2).get 1).take keyLength))

end Chain

namespace SymmetricState

variable (suite : Suite) (state : SymmetricState)

theorem chain_mixHash (data : Bytes) :
    (state.mixHash suite data).chain = state.chain.mix suite ⟨.hash, data⟩ := rfl

theorem chain_mixKey (secret : Bytes) :
    (state.mixKey suite secret).chain = state.chain.mix suite ⟨.key, secret⟩ := rfl

theorem chain_mixKeyAndHash (secret : Bytes) :
    (state.mixKeyAndHash suite secret).chain =
      state.chain.mix suite ⟨.keyAndHash, secret⟩ := by
  have sameFirst :
      (suite.hash.hkdf state.ck secret 3)[0] = suite.derive state.ck secret :=
    (HashFunction.hkdf_first ..).trans (HashFunction.hkdf_first ..).symm
  simp only [mixKeyAndHash, sameFirst]
  rfl

end SymmetricState

/-- All that can happen to the transcript in a handshake before it ends: it stays as it
is, or it takes in an entry. -/
inductive SymmetricState.Takes (suite : Suite) (state : SymmetricState) :
    Option Entry → SymmetricState → Prop where
  | nothing : Takes suite state none state
  | hash (data : Bytes) :
      Takes suite state (some ⟨.hash, data⟩) (state.mixHash suite data)
  | key (secret : Bytes) :
      Takes suite state (some ⟨.key, secret⟩) (state.mixKey suite secret)
  | keyAndHash (secret : Bytes) :
      Takes suite state (some ⟨.keyAndHash, secret⟩) (state.mixKeyAndHash suite secret)
  | encrypt {plaintext message : Bytes} {next : SymmetricState} :
      state.encryptAndHash suite plaintext = .ok (message, next) →
      Takes suite state (some ⟨.hash, message⟩) next
  | decrypt {plaintext message : Bytes} {next : SymmetricState} :
      state.decryptAndHash suite message = .ok (plaintext, next) →
      Takes suite state (some ⟨.hash, message⟩) next

/-- Hash and chaining key depend on the entries alone. -/
theorem SymmetricState.Takes.chain_eq {suite : Suite} {state next : SymmetricState}
    {entry : Option Entry} (takes : state.Takes suite entry next) :
    next.chain = entry.elim state.chain (state.chain.mix suite) := by
  cases takes with
  | nothing => rfl
  | hash data => exact chain_mixHash suite state data
  | key secret => exact chain_mixKey suite state secret
  | keyAndHash secret => exact chain_mixKeyAndHash suite state secret
  | encrypt encrypted =>
      obtain ⟨cipher, -, rfl⟩ := encryptAndHash_eq_ok.1 encrypted
      rfl
  | decrypt decrypted =>
      obtain ⟨cipher, -, rfl⟩ := decryptAndHash_eq_ok.1 decrypted
      rfl

/-! ## The parts of a decryption -/

namespace Machine

variable {suite : Suite} {generate : KeyGenerator} {machine next : Machine}
  {bytes : Bytes}

/-- The field of the incoming message that is decrypted: so many bytes, or
all that is left. -/
def field (machine : Machine) : Option Int → Except Stopped (Bytes × Machine)
  | some length => machine.take length
  | none => machine.takeRest

/-- Decrypts a field and stores its text. -/
def openField (suite : Suite) (machine : Machine) (symmetric : SymmetricState)
    (target : Operand) (expected : Option Int) (bytes : Bytes) :
    Except Stopped Machine := do
  let (plaintext, symmetric) ←
    machine.attemptSymmetric (symmetric.decryptAndHash suite bytes)
  let machine := machine.withSymmetric symmetric
  match expected with
  | some expected =>
      if plaintext.length = expected then return machine.store target plaintext
      else throw { machine, error := .decryptedKeyLength expected plaintext.length }
  | none => return machine.store target plaintext

theorem exec_authDecrypt (target : Operand) (length expected : Option Int) :
    machine.exec suite generate (.authDecrypt target length expected) =
      machine.field length >>= fun part =>
        part.2.openField suite machine.state.symmetric target expected part.1 := by
  cases length <;> rfl

/-- Taking bytes moves the place in the incoming message and changes nothing else. -/
theorem of_take {length : Int} (took : machine.take length = .ok (bytes, next)) :
    length ≤ machine.frame.input.length - machine.frame.position ∧
      bytes = machine.frame.input.slice machine.frame.position
        (machine.frame.position + length) ∧
      next = { machine with frame.position := machine.frame.position + length } := by
  simp only [take] at took
  split at took
  · cases took
  next enough =>
    cases took
    exact ⟨Int.not_lt.1 enough, rfl, rfl⟩

theorem of_takeRest (took : machine.takeRest = .ok (bytes, next)) :
    bytes =
      machine.frame.input.slice machine.frame.position machine.frame.input.length ∧
      next = { machine with frame.position := machine.frame.input.length } := by
  simp only [takeRest] at took
  by_cases short :
    (machine.frame.input.slice machine.frame.position
      machine.frame.input.length).length <
      if machine.state.symmetric.hasKey then tagLength else 0
  · rw [if_pos short] at took
    cases took
  · rw [if_neg short] at took
    cases took
    exact ⟨rfl, rfl⟩

theorem of_field {length : Option Int}
    (took : machine.field length = .ok (bytes, next)) :
    ∃ position, next = { machine with frame.position := position } := by
  cases length with
  | some length => exact ⟨_, (of_take took).2.2⟩
  | none => exact ⟨_, (of_takeRest took).2⟩

theorem of_openField {symmetric : SymmetricState} {target : Operand}
    {expected : Option Int}
    (opened : machine.openField suite symmetric target expected bytes = .ok next) :
    ∃ plaintext after, symmetric.decryptAndHash suite bytes = .ok (plaintext, after) ∧
      next = (machine.withSymmetric after).store target plaintext := by
  obtain ⟨⟨plaintext, after⟩, decrypted, opened⟩ := bind_eq_ok.1 opened
  rw [attemptSymmetric_eq_ok] at decrypted
  refine ⟨plaintext, after, decrypted, ?_⟩
  cases expected with
  | none => exact (Except.ok.inj opened).symm
  | some expected =>
      by_cases fits : plaintext.length = expected
      · simp only [fits, ↓reduceIte] at opened
        exact (Except.ok.inj opened).symm
      · simp only [fits, ↓reduceIte] at opened
        cases opened

@[simp] theorem symmetric_store (target : Operand) (bytes : Bytes) :
    (machine.store target bytes).state.symmetric = machine.state.symmetric := by
  rcases target with (_ | _) | (_ | _) | _ | _ | _ <;> rfl

@[simp] theorem ending_store (target : Operand) (bytes : Bytes) :
    (machine.store target bytes).frame.ending = machine.frame.ending := by
  rcases target with (_ | _) | (_ | _) | _ | _ | _ <;> rfl

end Machine

/-! ## The entries of a program -/

/-- What an instruction does with the transcript. -/
def Instruction.mixing? : Instruction → Option Mixing
  | .mixHash _ | .authEncrypt _ | .authDecrypt .. => some .hash
  | .mixKey _ => some .key
  | .mixKeyAndHash _ => some .keyAndHash
  | .generateEphemeral | .emit _ | .parse .. | .checkRemoteKey _ | .split => none

namespace Machine

variable (suite : Suite) (generate : KeyGenerator)

/-- What an instruction gives the transcript, if it comes to that. -/
def taken (machine : Machine) : Instruction → Option Entry
  | .mixHash source => do
      return ⟨.hash, ← (machine.value source).toOption⟩
  | .mixKey source => do
      return ⟨.key, ← (machine.source source).toOption⟩
  | .mixKeyAndHash source => do
      return ⟨.keyAndHash, ← (machine.value source).toOption⟩
  | .authEncrypt source => do
      let plaintext ← (machine.value source).toOption
      let (ciphertext, _)
          ← (machine.state.symmetric.encryptAndHash suite plaintext).toOption
      return ⟨.hash, ciphertext⟩
  | .authDecrypt _ length _ => do
      let (bytes, _) ← (machine.field length).toOption
      -- What does not decrypt is not hashed.
      let _ ← (machine.state.symmetric.decryptAndHash suite bytes).toOption
      return ⟨.hash, bytes⟩
  | .generateEphemeral | .emit _ | .parse .. | .checkRemoteKey _ | .split => none

/-- What a program gives the transcript, up to an instruction that fails. -/
def transcript (machine : Machine) : Program → List Entry
  | [] => []
  | instruction :: rest =>
      (machine.taken suite instruction).toList ++
        match machine.exec suite generate instruction with
        | .ok next => transcript next rest
        | .error _ => []

variable {suite generate} {machine middle next : Machine} {instruction : Instruction}
  {program : Program}

/-- An instruction takes in what is said of it, and leaves no ending unless
it is a split. -/
theorem of_exec (ran : machine.exec suite generate instruction = .ok next)
    (goesOn : instruction ≠ .split) :
    machine.state.symmetric.Takes suite
      (machine.taken suite instruction) next.state.symmetric ∧
      (machine.taken suite instruction).map (·.mixing) = instruction.mixing? ∧
      next.frame.ending = machine.frame.ending := by
  cases instruction with
  | generateEphemeral =>
      simp only [exec] at ran
      split at ran <;> cases ran <;> exact ⟨.nothing, rfl, rfl⟩
  | emit source =>
      obtain ⟨bytes, -, made⟩ := bind_eq_ok.1 ran
      cases made
      exact ⟨.nothing, rfl, rfl⟩
  | parse target length =>
      obtain ⟨⟨bytes, moved⟩, took, made⟩ := bind_eq_ok.1 ran
      cases made
      rw [(of_take took).2.2, symmetric_store, ending_store]
      exact ⟨.nothing, rfl, rfl⟩
  | mixHash source =>
      obtain ⟨data, known, made⟩ := bind_eq_ok.1 ran
      rw [attempt_eq_ok] at known
      cases made
      rw [taken, known]
      exact ⟨.hash data, rfl, rfl⟩
  | mixKey source =>
      obtain ⟨secret, known, made⟩ := bind_eq_ok.1 ran
      rw [attempt_eq_ok] at known
      cases made
      rw [taken, known]
      exact ⟨.key secret, rfl, rfl⟩
  | mixKeyAndHash source =>
      obtain ⟨secret, known, made⟩ := bind_eq_ok.1 ran
      rw [attempt_eq_ok] at known
      cases made
      rw [taken, known]
      exact ⟨.keyAndHash secret, rfl, rfl⟩
  | authEncrypt source =>
      obtain ⟨plaintext, known, ran⟩ := bind_eq_ok.1 ran
      obtain ⟨⟨ciphertext, symmetric⟩, encrypted, made⟩ := bind_eq_ok.1 ran
      rw [attempt_eq_ok] at known
      rw [attemptSymmetric_eq_ok] at encrypted
      cases made
      have given : machine.taken suite (.authEncrypt source) =
          some ⟨.hash, ciphertext⟩ := by
        simp [taken, known, encrypted, Except.toOption]
      rw [given]
      exact ⟨.encrypt encrypted, rfl, rfl⟩
  | authDecrypt target length expected =>
      rw [exec_authDecrypt] at ran
      obtain ⟨⟨bytes, moved⟩, took, ran⟩ := bind_eq_ok.1 ran
      obtain ⟨position, rfl⟩ := of_field took
      obtain ⟨plaintext, symmetric, decrypted, rfl⟩ := of_openField ran
      have given : machine.taken suite (.authDecrypt target length expected) =
          some ⟨.hash, bytes⟩ := by
        simp [taken, took, decrypted, Except.toOption]
      rw [given, symmetric_store, ending_store]
      exact ⟨.decrypt decrypted, rfl, rfl⟩
  | checkRemoteKey target =>
      obtain ⟨-, -, made⟩ := bind_eq_ok.1 ran
      cases made
      exact ⟨.nothing, rfl, rfl⟩
  | split => exact absurd rfl goesOn

/-- A split keeps the hash, derives the transport ciphers and overwrites the
transcript. -/
theorem exec_split :
    machine.exec suite generate .split =
      .ok { machine.withSymmetric machine.state.symmetric.clear with
        frame.ending := some (machine.state.symmetric.chain.ending suite) } := rfl

theorem transcript_cons (ran : machine.exec suite generate instruction = .ok next) :
    machine.transcript suite generate (instruction :: program) =
      (machine.taken suite instruction).toList ++
        next.transcript suite generate program := by
  simp only [transcript, ran]

theorem transcript_append {first second : Program}
    (ran : machine.run suite generate first = .ok middle) :
    machine.transcript suite generate (first ++ second) =
      machine.transcript suite generate first ++
        middle.transcript suite generate second := by
  induction first generalizing machine with
  | nil =>
      obtain rfl := Except.ok.inj ran
      rfl
  | cons instruction rest ih =>
      rw [run_cons] at ran
      obtain ⟨after, executed, ran⟩ := bind_eq_ok.1 ran
      rw [List.cons_append, transcript_cons executed, transcript_cons executed, ih ran,
        List.append_assoc]

/-- A program without a split takes in its entries, one for each instruction
that mixes. -/
theorem of_run (ran : machine.run suite generate program = .ok next)
    (goesOn : .split ∉ program) :
    next.state.symmetric.chain =
        (machine.transcript suite generate program).foldl
          (·.mix suite) machine.state.symmetric.chain ∧
      (machine.transcript suite generate program).map (·.mixing) =
        program.filterMap (·.mixing?) ∧
      next.frame.ending = machine.frame.ending := by
  induction program generalizing machine with
  | nil =>
      obtain rfl := Except.ok.inj ran
      exact ⟨rfl, rfl, rfl⟩
  | cons instruction rest ih =>
      rw [List.mem_cons, not_or] at goesOn
      rw [run_cons] at ran
      obtain ⟨after, executed, ran⟩ := bind_eq_ok.1 ran
      obtain ⟨takes, mixing, ending⟩ := of_exec executed (Ne.symm goesOn.1)
      obtain ⟨restChain, restMixing, restEnding⟩ := ih ran goesOn.2
      rw [transcript_cons executed, List.foldl_append, List.map_append,
        List.filterMap_cons, restChain, restMixing, restEnding, takes.chain_eq, ending,
        ← mixing]
      cases machine.taken suite instruction with
      | none => exact ⟨rfl, rfl, rfl⟩
      | some entry => exact ⟨rfl, rfl, rfl⟩

end Machine

end Noise
