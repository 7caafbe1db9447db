import Noise.Proofs.Handshake.Operands

/-!
# Lengths, counters and errors of a handshake

Every key that a cipher ever gets has the length of a key, every counter starts at
zero and goes up, and hash and chaining key have the length of a digest.
Therefore a primitive never refuses its parameters: the errors of a program are
all errors of the protocol.
-/

namespace Noise

/-! ## Ciphers -/

structure CipherState.WellFormed (state : CipherState) : Prop where
  length_key : ∀ key ∈ state.key, key.length = keyLength
  nonce_nonneg : 0 ≤ state.nonce

namespace CipherState

variable {cipher : CipherFunction} {state next : CipherState}
  {ad plaintext message key : Bytes} {error : ProtocolError}

theorem wellFormed_empty : WellFormed {} := ⟨by simp, Int.le_refl 0⟩

theorem wellFormed_ofKey (length : key.length = keyLength) :
    (ofKey (some key)).WellFormed := by
  refine ⟨?_, Int.le_refl 0⟩
  rintro _ ⟨⟩
  exact length

theorem WellFormed.advance (wellFormed : state.WellFormed) :
    ({ state with nonce := state.nonce + 1 } : CipherState).WellFormed :=
  ⟨wellFormed.length_key, Int.le_add_one wellFormed.nonce_nonneg⟩

theorem WellFormed.encrypt (wellFormed : state.WellFormed)
    (encrypted : state.encrypt cipher ad plaintext = .ok (message, next)) :
    next.WellFormed := by
  rcases encrypt_eq_ok.1 encrypted with ⟨-, -, rfl⟩ | ⟨_, _, -, -, -, rfl⟩
  · exact wellFormed
  · exact wellFormed.advance

theorem WellFormed.decrypt (wellFormed : state.WellFormed)
    (decrypted : state.decrypt cipher ad message = .ok (plaintext, next)) :
    next.WellFormed := by
  rcases decrypt_eq_ok.1 decrypted with ⟨-, -, rfl⟩ | ⟨_, _, -, -, -, rfl⟩
  · exact wellFormed
  · exact wellFormed.advance

theorem keyLength_mem_keyLengths (cipher : CipherFunction) :
    cipher.keyLengths.contains keyLength = true := by
  cases cipher <;> rfl

/-- A cipher without a key stays so, and one with a key gets the next one. -/
theorem WellFormed.rekey_eq (wellFormed : state.WellFormed) (cipher : CipherFunction) :
    state.rekey cipher = .ok { state with key := state.key.map (nextKey cipher) } := by
  obtain ⟨key, nonce⟩ := state
  cases key with
  | none => rfl
  | some key =>
      have length : key.length = keyLength := wellFormed.length_key key rfl
      simp only [CipherState.rekey, length, keyLength_mem_keyLengths, ↓reduceIte,
        Option.map_some]

theorem WellFormed.rekey (wellFormed : state.WellFormed)
    (rekeyed : state.rekey cipher = .ok next) :
    next.WellFormed ∧ next.hasKey = state.hasKey := by
  rw [wellFormed.rekey_eq cipher] at rekeyed
  obtain rfl := Except.ok.inj rekeyed
  refine ⟨⟨?_, wellFormed.nonce_nonneg⟩, by simp [hasKey]⟩
  intro key held
  obtain ⟨previous, -, rfl⟩ := Option.map_eq_some_iff.1 held
  exact length_nextKey cipher previous

/-- Every counter that is not used up has a nonce. -/
theorem nonce?_eq_ok (cipher : CipherFunction) {counter : Int} (nonneg : 0 ≤ counter)
    (left : counter < maxNonce) :
    cipher.nonce? counter = .ok (cipher.nonce counter.toNat) := by
  have inRange : ¬ counter < 0 ∧ ¬ (Bytes.capacity 8 : Int) ≤ counter := by
    rw [maxNonce] at left
    omega
  rw [CipherFunction.nonce?, if_neg inRange.1, if_neg inRange.2]

/-- The nonces are all that a well-formed cipher can run out of. -/
theorem nextNonce_eq_error (length : key.length = keyLength) {counter : Int}
    (nonneg : 0 ≤ counter) (failed : nextNonce cipher key counter = .error error) :
    error = .nonceExhausted := by
  rw [nextNonce, length, keyLength_mem_keyLengths] at failed
  by_cases exhausted : (maxNonce : Int) ≤ counter
  · rw [if_pos exhausted] at failed
    exact (Except.error.inj failed).symm
  · rw [if_neg exhausted, nonce?_eq_ok cipher nonneg (Int.not_le.1 exhausted)] at failed
    cases failed

/-- A fresh cipher encrypts. -/
theorem encrypt_ofKey (cipher : CipherFunction) (length : key.length = keyLength)
    (ad plaintext : Bytes) :
    ∃ message, (ofKey (some key)).encrypt cipher ad plaintext =
      .ok (message, { key := some key, nonce := 1 }) ∧
      message.length = plaintext.length + tagLength := by
  have fresh : nextNonce cipher key 0 = .ok (cipher.nonce 0) := by
    rw [nextNonce, length, keyLength_mem_keyLengths]
    rfl
  have encrypted : (ofKey (some key)).encrypt cipher ad plaintext =
      .ok (cipher.encrypt key (cipher.nonce 0) ad plaintext,
        { key := some key, nonce := 1 }) :=
    encrypt_eq_ok.2 (.inr ⟨key, _, rfl, fresh, rfl, rfl⟩)
  exact ⟨_, encrypted, length_of_encrypt encrypted⟩

theorem WellFormed.encrypt_eq_error {halt : Halt CipherState}
    (wellFormed : state.WellFormed)
    (failed : state.encrypt cipher ad plaintext = .error halt) :
    halt.error = .nonceExhausted := by
  obtain ⟨-, key, held, failed⟩ := CipherState.encrypt_eq_error failed
  exact nextNonce_eq_error
    (wellFormed.length_key key held) wellFormed.nonce_nonneg failed

theorem WellFormed.decrypt_eq_error {halt : Halt CipherState}
    (wellFormed : state.WellFormed)
    (failed : state.decrypt cipher ad message = .error halt) :
    halt.error = .nonceExhausted ∨ halt.error = .tagMismatch := by
  obtain ⟨-, mismatch | ⟨key, held, failed⟩⟩ := CipherState.decrypt_eq_error failed
  · exact .inr mismatch
  · exact .inl
      (nextNonce_eq_error (wellFormed.length_key key held)
        wellFormed.nonce_nonneg failed)

end CipherState

/-! ## Transcripts -/

structure SymmetricState.WellFormed (suite : Suite) (state : SymmetricState) :
    Prop where
  length_h : state.h.length = suite.hash.length
  length_ck : state.ck.length = suite.hash.length
  cipher : state.cipher.WellFormed

namespace SymmetricState

variable {suite : Suite} {state next : SymmetricState}

/-- A derived key is cut to the length of a key. -/
theorem length_take_hkdf (ck secret : Bytes) {outputs : Nat} (place : Nat)
    (inside : place < outputs) :
    ((suite.hash.hkdf ck secret outputs)[place].take keyLength).length = keyLength := by
  rw [List.length_take, HashFunction.length_hkdf]
  exact Nat.min_eq_left suite.hash.keyLength_le_length

theorem wellFormed_start (suite : Suite) (name : Bytes) :
    (start suite name).WellFormed suite := by
  have length : (nameHash suite name).length = suite.hash.length := by
    rw [nameHash]
    split
    · rw [List.length_append, Bytes.length_zeros]
      omega
    · exact HashFunction.length_digest ..
  exact ⟨length, length, CipherState.wellFormed_empty⟩

theorem WellFormed.mixHash (wellFormed : state.WellFormed suite) (data : Bytes) :
    (state.mixHash suite data).WellFormed suite :=
  ⟨HashFunction.length_digest .., wellFormed.length_ck, wellFormed.cipher⟩

theorem WellFormed.clear (wellFormed : state.WellFormed suite) :
    state.clear.WellFormed suite :=
  ⟨(Bytes.length_zeros _).trans wellFormed.length_h,
    (Bytes.length_zeros _).trans wellFormed.length_ck, CipherState.wellFormed_empty⟩

/-- Whatever a transcript takes in, it stays well-formed. -/
theorem WellFormed.takes {entry : Option Entry} (wellFormed : state.WellFormed suite)
    (takes : state.Takes suite entry next) : next.WellFormed suite := by
  cases takes with
  | nothing => exact wellFormed
  | hash data => exact wellFormed.mixHash data
  | key secret =>
      exact ⟨wellFormed.length_h, HashFunction.length_hkdf ..,
        CipherState.wellFormed_ofKey (length_take_hkdf ..)⟩
  | keyAndHash secret =>
      exact ⟨HashFunction.length_digest .., HashFunction.length_hkdf ..,
        CipherState.wellFormed_ofKey (length_take_hkdf ..)⟩
  | encrypt encrypted =>
      obtain ⟨cipher, ciphertext, rfl⟩ := encryptAndHash_eq_ok.1 encrypted
      exact ⟨HashFunction.length_digest .., wellFormed.length_ck,
        wellFormed.cipher.encrypt ciphertext⟩
  | decrypt decrypted =>
      obtain ⟨cipher, text, rfl⟩ := decryptAndHash_eq_ok.1 decrypted
      exact ⟨HashFunction.length_digest .., wellFormed.length_ck,
        wellFormed.cipher.decrypt text⟩

end SymmetricState

/-- What a handshake leaves: a hash of the length of a digest and two ciphers
with keys. -/
structure Ending.WellFormed (suite : Suite) (ending : Ending) : Prop where
  length_handshakeHash : ending.handshakeHash.length = suite.hash.length
  first : ending.first.WellFormed
  second : ending.second.WellFormed
  hasKey_first : ending.first.hasKey
  hasKey_second : ending.second.hasKey

theorem SymmetricState.WellFormed.ending {suite : Suite} {state : SymmetricState}
    (wellFormed : state.WellFormed suite) :
    (state.chain.ending suite).WellFormed suite where
  length_handshakeHash := wellFormed.length_h
  first := CipherState.wellFormed_ofKey (length_take_hkdf ..)
  second := CipherState.wellFormed_ofKey (length_take_hkdf ..)
  hasKey_first := rfl
  hasKey_second := rfl

/-! ## Programs -/

structure Machine.WellFormed (suite : Suite) (machine : Machine) : Prop where
  symmetric : machine.state.symmetric.WellFormed suite
  ending : ∀ ending ∈ machine.frame.ending, ending.WellFormed suite

namespace Machine

variable {suite : Suite} {generate : KeyGenerator} {machine next : Machine}
  {instruction : Instruction} {program : Program}

theorem WellFormed.exec (wellFormed : machine.WellFormed suite)
    (ran : machine.exec suite generate instruction = .ok next) :
    next.WellFormed suite := by
  by_cases splits : instruction = .split
  · rw [splits, exec_split] at ran
    obtain rfl := Except.ok.inj ran
    refine ⟨wellFormed.symmetric.clear, ?_⟩
    rintro _ ⟨⟩
    exact wellFormed.symmetric.ending
  · obtain ⟨takes, -, sameEnding⟩ := of_exec ran splits
    refine ⟨wellFormed.symmetric.takes takes, ?_⟩
    rw [sameEnding]
    exact wellFormed.ending

theorem WellFormed.run (wellFormed : machine.WellFormed suite)
    (ran : machine.run suite generate program = .ok next) : next.WellFormed suite := by
  induction program generalizing machine with
  | nil =>
      obtain rfl := Except.ok.inj ran
      exact wellFormed
  | cons instruction rest ih =>
      rw [run_cons] at ran
      obtain ⟨after, executed, ran⟩ := bind_eq_ok.1 ran
      exact ih (wellFormed.exec executed) ran

end Machine

/-! ## Errors -/

/-- Whether an error can come up inside a step of the handshake or in a
transport cipher. -/
def ProtocolError.isOfStep (error : ProtocolError) : Bool :=
  match error.kind with
  | .decryption | .tooShort | .publicKey | .missingKey | .nonceExhausted => true
  | .sequencing | .privateKey | .tooLarge | .corrupt | .cipherKey | .nonceRange => false

/-- An agreement fails for the length of the public key, or because the
secret would be zero. -/
theorem KeyPair.error_of_agree {pair : KeyPair} {key : Bytes} {error : ProtocolError}
    (failed : pair.agree key = .error error) :
    error = .publicKeyLength pair.dh.keyLength key.length ∨ error = .zeroSecret := by
  simp only [agree] at failed
  split at failed
  · exact .inl (Except.error.inj failed).symm
  · split at failed
    · exact .inr (Except.error.inj failed).symm
    · cases failed

theorem KeyPair.kind_of_agree {pair : KeyPair} {key : Bytes} {error : ProtocolError}
    (failed : pair.agree key = .error error) : error.kind = .publicKey := by
  rcases error_of_agree failed with rfl | rfl <;> rfl

namespace Machine

variable {suite : Suite} {generate : KeyGenerator} {machine : Machine}
  {stopped : Stopped}
  {instruction : Instruction} {program : Program} {operand : Operand}
  {error : ProtocolError}

/-- All that an instruction can fail for. -/
inductive Faults (suite : Suite) (machine : Machine) :
    Instruction → ProtocolError → Prop where
  | missing {instruction : Instruction} {operand : Operand} :
      operand ∈ instruction.needs →
      (instruction.isOrdinary → ¬ machine.state.Holds operand) →
      Faults suite machine instruction (.notSet operand)
  | agreement {ownKey publicKey : Operand} {pair : KeyPair} {key : Bytes}
      {error : ProtocolError} :
      pair.agree key = .error error →
      Faults suite machine (.mixKey (.dh ownKey publicKey)) error
  | short {instruction : Instruction} (needed available : Int) :
      Faults suite machine instruction (.tooShort needed available)
  | exhausted {instruction : Instruction} :
      Faults suite machine instruction .nonceExhausted
  | tampered {instruction : Instruction} : Faults suite machine instruction .tagMismatch
  /-- The decrypted text has the wrong length. -/
  | length {target : Operand} {length : Option Int} {expected : Int}
      {bytes plaintext : Bytes} {moved : Machine} {symmetric : SymmetricState} :
      machine.field length = .ok (bytes, moved) →
      machine.state.symmetric.decryptAndHash suite bytes = .ok (plaintext, symmetric) →
      plaintext.length ≠ expected →
      Faults suite machine (.authDecrypt target length (some expected))
        (.decryptedKeyLength expected plaintext.length)
  | zero {target : Operand} :
      Faults suite machine (.checkRemoteKey target) (.zeroKey target)
  | reflected {target : Operand} :
      Faults suite machine (.checkRemoteKey target) (.reflectedKey target)

theorem attempt_eq_error {α : Type} {result : Except ProtocolError α}
    (failed : machine.attempt result = .error stopped) :
    result = .error stopped.error := by
  cases result with
  | error cause =>
      obtain rfl := Except.error.inj failed
      rfl
  | ok value => cases failed

theorem attemptSymmetric_eq_error {α : Type} {result : Except (Halt SymmetricState) α}
    (failed : machine.attemptSymmetric result = .error stopped) :
    ∃ halt, result = .error halt ∧ stopped.error = halt.error := by
  cases result with
  | error halt =>
      obtain rfl := Except.error.inj failed
      exact ⟨halt, rfl, rfl⟩
  | ok value => cases failed

theorem keyPair_eq_error {state : HandshakeState}
    (failed : state.keyPair operand = .error error) :
    error = .notSet operand := by
  rcases operand with (_ | _) | (_ | _) | _ | _ | _
    <;> simp only [HandshakeState.keyPair] at failed <;>
    split at failed <;> simp_all

theorem faults_of_value (needed : operand ∈ instruction.needs)
    (failed : machine.value operand = .error error) :
    machine.Faults suite instruction error := by
  obtain ⟨rfl, lacks⟩ := value_eq_error failed
  exact .missing needed fun _ => lacks

theorem faults_of_agreement {ownKey publicKey : Operand}
    (failed : machine.source (.dh ownKey publicKey) = .error error) :
    machine.Faults suite (.mixKey (.dh ownKey publicKey)) error := by
  rcases bind_eq_error.1 failed with failed | ⟨pair, -, failed⟩
  · obtain rfl := keyPair_eq_error failed
    apply Faults.missing (List.mem_cons_self ..)
    intro ordinary
    cases ownKey with
    | own kind =>
        have unknown : machine.value (.own kind) = .error (.notSet (.own kind)) := by
          rw [value, failed]
          rfl
        exact (value_eq_error unknown).2
    | peer | psk | prologue | payload => cases ordinary
  · rcases bind_eq_error.1 failed with failed | ⟨key, -, failed⟩
    · exact faults_of_value (List.mem_cons_of_mem _ (List.mem_singleton_self _)) failed
    · exact .agreement failed

theorem faults_of_checkKey {target : Operand}
    (failed : machine.checkKey target = .error error) :
    machine.Faults suite (.checkRemoteKey target) error := by
  rcases bind_eq_error.1 failed with failed | ⟨key, -, failed⟩
  · exact faults_of_value (List.mem_singleton_self _) failed
  · by_cases zero : key.isZero
    · rw [if_pos zero] at failed
      obtain rfl := Except.error.inj failed
      exact .zero
    · rw [if_neg zero] at failed
      -- Which own key it is compared with does not matter.
      split at failed <;> dsimp only at failed <;> split at failed <;> cases failed
        <;> exact .reflected

theorem faults_of_take {length : Int} (failed : machine.take length = .error stopped) :
    machine.Faults suite instruction stopped.error := by
  simp only [take] at failed
  split at failed
  · obtain rfl := Except.error.inj failed
    exact .short _ _
  · cases failed

theorem faults_of_takeRest (failed : machine.takeRest = .error stopped) :
    machine.Faults suite instruction stopped.error := by
  simp only [takeRest] at failed
  by_cases short :
    (machine.frame.input.slice machine.frame.position
      machine.frame.input.length).length <
      if machine.state.symmetric.hasKey then tagLength else 0
  · rw [if_pos short] at failed
    obtain rfl := Except.error.inj failed
    exact .short _ _
  · rw [if_neg short] at failed
    cases failed

theorem faults_of_field {length : Option Int}
    (failed : machine.field length = .error stopped) :
    machine.Faults suite instruction stopped.error := by
  cases length with
  | some length => exact faults_of_take failed
  | none => exact faults_of_takeRest failed

/-- An instruction fails for what it can fail for. -/
theorem WellFormed.faults_of_exec (wellFormed : machine.WellFormed suite)
    (failed : machine.exec suite generate instruction = .error stopped) :
    machine.Faults suite instruction stopped.error := by
  cases instruction with
  | generateEphemeral =>
      simp only [Machine.exec] at failed
      split at failed <;> cases failed
  | emit source | mixHash source | mixKeyAndHash source =>
      rcases bind_eq_error.1 failed with failed | ⟨_, -, failed⟩
      · exact faults_of_value (List.mem_singleton_self _) (attempt_eq_error failed)
      · cases failed
  | parse target length =>
      rcases bind_eq_error.1 failed with failed | ⟨_, -, failed⟩
      · exact faults_of_take failed
      · cases failed
  | mixKey source =>
      rcases bind_eq_error.1 failed with failed | ⟨_, -, failed⟩
      · cases source with
        | value operand =>
            exact faults_of_value (List.mem_singleton_self _) (attempt_eq_error failed)
        | dh ownKey publicKey => exact faults_of_agreement (attempt_eq_error failed)
      · cases failed
  | authEncrypt source =>
      rcases bind_eq_error.1 failed with failed | ⟨plaintext, -, failed⟩
      · exact faults_of_value (List.mem_singleton_self _) (attempt_eq_error failed)
      · rcases bind_eq_error.1 failed with failed | ⟨_, -, failed⟩
        · obtain ⟨halt, failed, same⟩ := attemptSymmetric_eq_error failed
          obtain ⟨-, failed⟩ := SymmetricState.encryptAndHash_eq_error failed
          have exhausted := wellFormed.symmetric.cipher.encrypt_eq_error failed
          rw [same, exhausted]
          exact .exhausted
        · cases failed
  | authDecrypt target length expected =>
      rw [exec_authDecrypt] at failed
      rcases bind_eq_error.1 failed with failed | ⟨⟨bytes, moved⟩, took, failed⟩
      · exact faults_of_field failed
      · rcases bind_eq_error.1 failed with
          failed | ⟨⟨plaintext, symmetric⟩, opened, failed⟩
        · obtain ⟨halt, failed, same⟩ := attemptSymmetric_eq_error failed
          obtain ⟨-, failed⟩ := SymmetricState.decryptAndHash_eq_error failed
          rcases wellFormed.symmetric.cipher.decrypt_eq_error failed with
            exhausted | mismatch
          · rw [same, exhausted]
            exact .exhausted
          · rw [same, mismatch]
            exact .tampered
        · cases expected with
          | none => cases failed
          | some expected =>
              by_cases fits : plaintext.length = expected
              · simp only [fits, ↓reduceIte] at failed
                cases failed
              · simp only [fits, ↓reduceIte] at failed
                obtain rfl := Except.error.inj failed
                exact .length took (attemptSymmetric_eq_ok.1 opened) fits
  | checkRemoteKey target =>
      rcases bind_eq_error.1 failed with failed | ⟨_, -, failed⟩
      · exact faults_of_checkKey (attempt_eq_error failed)
      · cases failed
  | split => cases failed

/-- The errors of an instruction are errors of a step. -/
theorem Faults.isOfStep (faults : machine.Faults suite instruction error) :
    error.isOfStep := by
  cases faults with
  | agreement failed => rw [ProtocolError.isOfStep, KeyPair.kind_of_agree failed]
  | missing | short | exhausted | tampered | length | zero | reflected => rfl

theorem Faults.missing_of_kind (faults : machine.Faults suite instruction error)
    (ordinary : instruction.isOrdinary) (kind : error.kind = .missingKey) :
    ∃ operand ∈ instruction.needs, error = .notSet operand ∧
      ¬ machine.state.Holds operand := by
  cases faults with
  | missing needed lacks => exact ⟨_, needed, rfl, lacks ordinary⟩
  | agreement failed => cases (KeyPair.kind_of_agree failed).symm.trans kind
  | short | exhausted | tampered | length | zero | reflected => cases kind

theorem WellFormed.isOfStep_of_run (wellFormed : machine.WellFormed suite)
    (failed : machine.run suite generate program = .error stopped) :
    stopped.error.isOfStep := by
  induction program generalizing machine with
  | nil => cases failed
  | cons instruction rest ih =>
      rw [run_cons] at failed
      rcases bind_eq_error.1 failed with failed | ⟨next, executed, failed⟩
      · exact (wellFormed.faults_of_exec failed).isOfStep
      · exact ih (wellFormed.exec executed) failed

/-- A program that stops for a missing key refers to that key, and did not
have it at the start. -/
theorem WellFormed.missing_of_run (wellFormed : machine.WellFormed suite)
    (ordinary : program.isOrdinary)
    (failed : machine.run suite generate program = .error stopped)
    (kind : stopped.error.kind = .missingKey) :
    ∃ operand, stopped.error = .notSet operand ∧ program.uses operand ∧
      ¬ machine.state.Holds operand := by
  induction program generalizing machine with
  | nil => cases failed
  | cons instruction rest ih =>
      obtain ⟨first, later⟩ := Bool.and_eq_true_iff.1 ordinary
      simp only [Program.uses_cons, Bool.or_eq_true, List.contains_iff_mem]
      rw [run_cons] at failed
      rcases bind_eq_error.1 failed with failed | ⟨middle, executed, failed⟩
      · obtain ⟨operand, needed, missing, lacks⟩ :=
          (wellFormed.faults_of_exec failed).missing_of_kind first kind
        exact ⟨operand, missing, .inl (instruction.needs_subset needed), lacks⟩
      · obtain ⟨operand, missing, used, lacks⟩ :=
          ih (wellFormed.exec executed) later failed
        exact ⟨operand, missing, .inr used, fun held =>
          lacks ((changes_of_exec executed).holds held)⟩

end Machine

/-! ## Whole messages -/

namespace HandshakeState

variable {suite : Suite} {generate : KeyGenerator} {state : HandshakeState}
  {program : Program} {payload input : Bytes} {outcome : Outcome} {stopped : Stopped}

def WellFormed (suite : Suite) (state : HandshakeState) : Prop :=
  state.symmetric.WellFormed suite

theorem WellFormed.machine (wellFormed : state.WellFormed suite) {frame : Frame}
    (fresh : frame.ending = none) :
    Machine.WellFormed suite { state, frame } := by
  refine ⟨wellFormed, ?_⟩
  intro ending left
  rw [fresh] at left
  cases left

theorem WellFormed.write (wellFormed : state.WellFormed suite)
    (written : state.write suite generate program payload = .ok outcome) :
    outcome.state.WellFormed suite ∧ ∀ ending ∈ outcome.ending,
      ending.WellFormed suite := by
  obtain ⟨last, ran, left⟩ := bind_eq_ok.1 written
  obtain rfl := Except.ok.inj left
  have sound := (wellFormed.machine rfl).run ran
  exact ⟨sound.symmetric, sound.ending⟩

theorem WellFormed.read (wellFormed : state.WellFormed suite)
    (read : state.read suite generate program input = .ok outcome) :
    outcome.state.WellFormed suite ∧ ∀ ending ∈ outcome.ending,
      ending.WellFormed suite := by
  obtain ⟨last, ran, left⟩ := bind_eq_ok.1 read
  obtain rfl := Except.ok.inj left
  have sound := (wellFormed.machine rfl).run ran
  exact ⟨sound.symmetric, sound.ending⟩

theorem WellFormed.isOfStep_of_write (wellFormed : state.WellFormed suite)
    (failed : state.write suite generate program payload = .error stopped) :
    stopped.error.isOfStep := by
  rcases bind_eq_error.1 failed with failed | ⟨_, -, failed⟩
  · exact (wellFormed.machine rfl).isOfStep_of_run failed
  · cases failed

theorem WellFormed.isOfStep_of_read (wellFormed : state.WellFormed suite)
    (failed : state.read suite generate program input = .error stopped) :
    stopped.error.isOfStep := by
  rcases bind_eq_error.1 failed with failed | ⟨_, -, failed⟩
  · exact (wellFormed.machine rfl).isOfStep_of_run failed
  · cases failed

theorem wellFormed_of_start {protocol : Protocol} {role : Role} {prologue : Bytes}
    {keys : Keys} (started : start protocol role prologue keys = .ok state) :
    state.WellFormed protocol.suite := by
  simp only [start] at started
  split at started
  next machine ran =>
    obtain rfl := Except.ok.inj started
    have fresh : (ofKeys protocol keys).WellFormed protocol.suite :=
      SymmetricState.wellFormed_start ..
    exact ((fresh.machine rfl).run ran).symmetric
  next => cases started

end HandshakeState

/-! ## A message of the preshared secret -/

/-- Under a new key a text can be encrypted, and it has no part in the chaining key. -/
theorem SymmetricState.encryptAndHash_of_psk (suite : Suite) (state : SymmetricState)
    (secret plaintext : Bytes) :
    ∃ message next,
      (state.mixKeyAndHash suite secret).encryptAndHash suite plaintext =
        .ok (message, next) ∧
      message.length = plaintext.length + tagLength ∧
      next.ck = (state.mixKeyAndHash suite secret).ck := by
  have keyed : ((suite.hash.hkdf state.ck secret 3)[2].take keyLength).length =
      keyLength :=
    SymmetricState.length_take_hkdf ..
  obtain ⟨message, encrypted, length⟩ := CipherState.encrypt_ofKey suite.cipher keyed
    (state.mixKeyAndHash suite secret).h plaintext
  exact ⟨message, _, SymmetricState.encryptAndHash_eq_ok.2 ⟨_, encrypted, rfl⟩,
    length, rfl⟩

/-- A message of the preshared secret alone can always be written, and its payload has
no part in the keys. -/
theorem HandshakeState.write_of_psk {suite : Suite} {generate : KeyGenerator}
    {state : HandshakeState} {secret : Bytes} (held : state.psk = some secret)
    (payload : Bytes) :
    ∃ outcome chain,
      state.write suite generate
        [.mixKeyAndHash .psk, .authEncrypt .payload, .split] payload = .ok outcome ∧
      outcome.message.length = payload.length + tagLength ∧
      outcome.ending = some (Chain.ending suite chain) ∧
      chain.ck = (state.symmetric.mixKeyAndHash suite secret).ck := by
  obtain ⟨message, next, encrypted, length, chainingKey⟩ :=
    SymmetricState.encryptAndHash_of_psk suite state.symmetric secret payload
  let start : Machine := { state, frame := { payload } }
  let mixed := start.withSymmetric (state.symmetric.mixKeyAndHash suite secret)
  let written := (mixed.withSymmetric next).emit message
  have mixes : start.exec suite generate (.mixKeyAndHash .psk) = .ok mixed := by
    simp [start, mixed, Machine.exec, Machine.value, Machine.value.known, held]
  have encrypts : mixed.exec suite generate (.authEncrypt .payload) = .ok written := by
    simp [start, mixed, written, Machine.exec, Machine.value, Machine.withSymmetric,
      encrypted]
  let last : Machine :=
    { written.withSymmetric next.clear with
      frame.ending := some (next.chain.ending suite) }
  have ran :
      start.run suite generate [.mixKeyAndHash .psk, .authEncrypt .payload, .split] =
      .ok last := by
    rw [Machine.run_cons, mixes, ok_bind, Machine.run_cons, encrypts, ok_bind,
      Machine.run_cons, Machine.exec_split, ok_bind]
    rfl
  let outcome : Outcome :=
    { message, state := last.state, ending := last.frame.ending,
      drewKey := last.frame.drewKey }
  have wrote : state.write suite generate
      [.mixKeyAndHash .psk, .authEncrypt .payload, .split] payload = .ok outcome := by
    rw [HandshakeState.write, ran]
    rfl
  exact ⟨outcome, next.chain, wrote, length, rfl, chainingKey⟩

end Noise
