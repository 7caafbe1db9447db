import Noise.State.Symmetric

/-!
# What two parties share through a cipher

A cipher state that decrypts what an equal one has encrypted gives the text back, and
the two states are equal again afterwards.  The same holds of transcripts, where the
message is hashed as well.
-/

namespace Noise

@[simp] theorem ok_bind {ε α β : Type} (value : α) (next : α → Except ε β) :
    (.ok value >>= next) = next value := rfl

@[simp] theorem error_bind {ε α β : Type} (error : ε) (next : α → Except ε β) :
    (.error error >>= next) = .error error := rfl

@[simp] theorem pure_eq_ok {ε α : Type} (value : α) :
    (pure value : Except ε α) = .ok value := rfl

theorem mapError_ok {ε δ α : Type} (translate : ε → δ) (value : α) :
    (Except.ok value).mapError translate = .ok value := rfl

theorem mapError_error {ε δ α : Type} (translate : ε → δ) (cause : ε) :
    (Except.error cause : Except ε α).mapError translate =
      .error (translate cause) := rfl

theorem mapError_eq_ok {ε δ α : Type} {result : Except ε α} {translate : ε → δ}
    {value : α} :
    result.mapError translate = .ok value ↔ result = .ok value := by
  cases result <;> simp [mapError_ok, mapError_error]

theorem mapError_eq_error {ε δ α : Type} {result : Except ε α} {translate : ε → δ}
    {error : δ} :
    result.mapError translate = .error error ↔
      ∃ cause, result = .error cause ∧ translate cause = error := by
  cases result <;> simp [mapError_ok, mapError_error]

/-- A computation in two parts succeeds when both parts do. -/
theorem bind_eq_ok {ε α β : Type} {first : Except ε α} {next : α → Except ε β}
    {result : β} :
    first >>= next = .ok result ↔ ∃ value, first = .ok value ∧
      next value = .ok result := by
  cases first with
  | error error => simp
  | ok value => simp

theorem bind_eq_error {ε α β : Type} {first : Except ε α} {next : α → Except ε β}
    {error : ε} :
    first >>= next = .error error ↔
      first = .error error ∨ ∃ value, first = .ok value ∧
        next value = .error error := by
  cases first with
  | error cause => simp
  | ok value => simp

theorem haltAt_eq_ok {σ α : Type} {state : σ} {result : Except ProtocolError α}
    {value : α} :
    haltAt state result = .ok value ↔ result = .ok value :=
  mapError_eq_ok

theorem haltAt_eq_error {σ α : Type} {state : σ} {result : Except ProtocolError α}
    {halt : Halt σ} :
    haltAt state result = .error halt ↔
      halt.state = state ∧ result = .error halt.error := by
  rw [haltAt, mapError_eq_error]
  constructor
  · rintro ⟨cause, failed, rfl⟩
    exact ⟨rfl, failed⟩
  · rintro ⟨rfl, failed⟩
    exact ⟨_, failed, rfl⟩

namespace CipherState

variable {cipher : CipherFunction} {state next : CipherState}
  {ad plaintext message : Bytes} {halt : Halt CipherState}

/-- Encryption either passes the text unchanged, or moves the counter on by one. -/
theorem encrypt_eq_ok :
    state.encrypt cipher ad plaintext = .ok (message, next) ↔
      state.key = none ∧ message = plaintext ∧ next = state ∨
      ∃ key nonce, state.key = some key ∧ nextNonce cipher key state.nonce = .ok nonce ∧
        message = cipher.encrypt key nonce ad plaintext ∧
        next = { state with nonce := state.nonce + 1 } := by
  cases held : state.key with
  | none => simp [encrypt, held, eq_comm]
  | some key =>
      simp only [encrypt, held, bind_eq_ok, haltAt_eq_ok, pure_eq_ok, Except.ok.injEq,
        Prod.mk.injEq]
      grind

/-- Decryption either passes the message unchanged, or moves the counter on by one. -/
theorem decrypt_eq_ok :
    state.decrypt cipher ad message = .ok (plaintext, next) ↔
      state.key = none ∧ plaintext = message ∧ next = state ∨
      ∃ key nonce, state.key = some key ∧ nextNonce cipher key state.nonce = .ok nonce ∧
        cipher.decrypt? key nonce ad message = some plaintext ∧
          next = { state with nonce := state.nonce + 1 } := by
  cases held : state.key with
  | none => simp [decrypt, held, eq_comm]
  | some key =>
      simp only [decrypt, held, bind_eq_ok, haltAt_eq_ok]
      constructor
      · rintro ⟨nonce, fresh, opened⟩
        cases accepted : cipher.decrypt? key nonce ad message with
        | none => simp [accepted, throw, throwThe, MonadExceptOf.throw] at opened
        | some text =>
            simp only [accepted, pure_eq_ok, Except.ok.injEq, Prod.mk.injEq] at opened
            obtain ⟨rfl, rfl⟩ := opened
            exact .inr ⟨key, nonce, rfl, fresh, accepted, by simp⟩
      · rintro (⟨keyless, -⟩ | ⟨key, nonce, ⟨⟩, fresh, accepted, rfl⟩)
        · simp at keyless
        · exact ⟨nonce, fresh, by simp [accepted]⟩

/-- Encryption fails for want of a nonce only, and leaves the state as it was. -/
theorem encrypt_eq_error (failed : state.encrypt cipher ad plaintext = .error halt) :
    halt.state = state ∧
      ∃ key, state.key = some key ∧ nextNonce cipher key state.nonce =
        .error halt.error := by
  cases held : state.key with
  | none => simp [encrypt, held] at failed
  | some key =>
      simp only [encrypt, held] at failed
      rcases bind_eq_error.1 failed with failed | ⟨_, -, failed⟩
      · obtain ⟨same, failed⟩ := haltAt_eq_error.1 failed
        exact ⟨same, key, rfl, failed⟩
      · cases failed

/-- Decryption fails for want of a nonce or because of the tag, and leaves
the state as it was. -/
theorem decrypt_eq_error (failed : state.decrypt cipher ad message = .error halt) :
    halt.state = state ∧ (halt.error = .tagMismatch ∨
      ∃ key, state.key = some key ∧ nextNonce cipher key state.nonce =
        .error halt.error) := by
  cases held : state.key with
  | none => simp [decrypt, held] at failed
  | some key =>
      simp only [decrypt, held] at failed
      rcases bind_eq_error.1 failed with failed | ⟨_, -, failed⟩
      · obtain ⟨same, failed⟩ := haltAt_eq_error.1 failed
        exact ⟨same, .inr ⟨key, rfl, failed⟩⟩
      · split at failed
        · cases failed
        · obtain rfl := Except.error.inj failed
          exact ⟨rfl, .inl rfl⟩

theorem rekey_eq_error (failed : state.rekey cipher = .error halt) :
    halt = { state, error := .cipherKeyLength cipher } := by
  cases held : state.key with
  | none => simp [rekey, held] at failed
  | some key =>
      simp only [rekey, held] at failed
      split at failed
      · cases failed
      · exact (Except.error.inj failed).symm

/-- What was encrypted is decrypted by an equal state, and the two states stay equal. -/
theorem decrypt_of_encrypt
    (encrypted : state.encrypt cipher ad plaintext = .ok (message, next)) :
    state.decrypt cipher ad message = .ok (plaintext, next) := by
  rw [decrypt_eq_ok]
  rcases encrypt_eq_ok.1 encrypted with ⟨keyless, rfl, rfl⟩
    | ⟨key, nonce, held, fresh, rfl, rfl⟩
  · exact .inl ⟨keyless, rfl, rfl⟩
  · exact .inr ⟨key, nonce, held, fresh, by simp, rfl⟩

/-- Under a key, encryption adds a tag. -/
theorem length_of_encrypt
    (encrypted : state.encrypt cipher ad plaintext = .ok (message, next)) :
    message.length = plaintext.length + if state.hasKey then tagLength else 0 := by
  rcases encrypt_eq_ok.1 encrypted with ⟨keyless, rfl, -⟩
    | ⟨key, nonce, held, -, rfl, -⟩
  · simp [hasKey, keyless]
  · simp [hasKey, held]

theorem length_of_decrypt
    (decrypted : state.decrypt cipher ad message = .ok (plaintext, next)) :
    message.length = plaintext.length + if state.hasKey then tagLength else 0 := by
  rcases decrypt_eq_ok.1 decrypted with ⟨keyless, rfl, -⟩
    | ⟨key, nonce, held, -, opened, -⟩
  · simp [hasKey, keyless]
  · simp [hasKey, held, CipherFunction.length_of_decrypt? opened]

theorem hasKey_of_encrypt
    (encrypted : state.encrypt cipher ad plaintext = .ok (message, next)) :
    next.hasKey = state.hasKey := by
  rcases encrypt_eq_ok.1 encrypted with ⟨-, -, rfl⟩ | ⟨key, nonce, -, -, -, rfl⟩ <;> rfl

theorem hasKey_of_decrypt
    (decrypted : state.decrypt cipher ad message = .ok (plaintext, next)) :
    next.hasKey = state.hasKey := by
  rcases decrypt_eq_ok.1 decrypted with ⟨-, -, rfl⟩ | ⟨key, nonce, -, -, -, rfl⟩ <;> rfl

end CipherState

namespace SymmetricState

variable {suite : Suite} {state next : SymmetricState} {plaintext message : Bytes}
  {halt : Halt SymmetricState}

theorem attemptCipher_eq_ok {α : Type} {result : Except (Halt CipherState) α}
    {value : α} :
    state.attemptCipher result = .ok value ↔ result = .ok value :=
  mapError_eq_ok

theorem encryptAndHash_eq_ok :
    state.encryptAndHash suite plaintext = .ok (message, next) ↔
      ∃ cipher, state.cipher.encrypt suite.cipher state.h plaintext =
        .ok (message, cipher) ∧
        next = { state with cipher }.mixHash suite message := by
  simp only [encryptAndHash, bind_eq_ok, attemptCipher_eq_ok, pure_eq_ok,
    Except.ok.injEq, Prod.mk.injEq, Prod.exists]
  grind

theorem decryptAndHash_eq_ok :
    state.decryptAndHash suite message = .ok (plaintext, next) ↔
      ∃ cipher, state.cipher.decrypt suite.cipher state.h message =
        .ok (plaintext, cipher) ∧
        next = { state with cipher }.mixHash suite message := by
  simp only [decryptAndHash, bind_eq_ok, attemptCipher_eq_ok, pure_eq_ok,
    Except.ok.injEq, Prod.mk.injEq, Prod.exists]
  grind

/-- A failure of the cipher that leaves the cipher as it was leaves the
transcript so. -/
theorem attemptCipher_eq_error {α : Type} {result : Except (Halt CipherState) α}
    (keeps : ∀ halt, result = .error halt → halt.state = state.cipher)
    (failed : state.attemptCipher result = .error halt) :
    halt.state = state ∧
    result = .error { state := state.cipher, error := halt.error } := by
  cases result with
  | ok value => cases failed
  | error cause =>
      have same := keeps cause rfl
      obtain rfl := Except.error.inj failed
      obtain ⟨cipher, error⟩ := cause
      obtain rfl : cipher = state.cipher := same
      exact ⟨rfl, rfl⟩

/-- A failure to encrypt leaves the transcript as it was. -/
theorem encryptAndHash_eq_error
    (failed : state.encryptAndHash suite plaintext = .error halt) :
    halt.state = state ∧ state.cipher.encrypt suite.cipher state.h plaintext =
      .error { state := state.cipher, error := halt.error } := by
  rcases bind_eq_error.1 failed with failed | ⟨_, -, failed⟩
  · exact attemptCipher_eq_error
      (fun _ failed => (CipherState.encrypt_eq_error failed).1) failed
  · cases failed

/-- A failure to decrypt leaves the transcript as it was. -/
theorem decryptAndHash_eq_error
    (failed : state.decryptAndHash suite message = .error halt) :
    halt.state = state ∧ state.cipher.decrypt suite.cipher state.h message =
      .error { state := state.cipher, error := halt.error } := by
  rcases bind_eq_error.1 failed with failed | ⟨_, -, failed⟩
  · exact attemptCipher_eq_error
      (fun _ failed => (CipherState.decrypt_eq_error failed).1) failed
  · cases failed

/-- A message is read by an equal transcript, and the two transcripts stay equal. -/
theorem decryptAndHash_of_encryptAndHash
    (encrypted : state.encryptAndHash suite plaintext = .ok (message, next)) :
    state.decryptAndHash suite message = .ok (plaintext, next) := by
  obtain ⟨cipher, ciphertext, rfl⟩ := encryptAndHash_eq_ok.1 encrypted
  exact decryptAndHash_eq_ok.2 ⟨cipher, CipherState.decrypt_of_encrypt ciphertext, rfl⟩

theorem length_of_encryptAndHash
    (encrypted : state.encryptAndHash suite plaintext = .ok (message, next)) :
    message.length = plaintext.length + if state.hasKey then tagLength else 0 := by
  obtain ⟨cipher, ciphertext, rfl⟩ := encryptAndHash_eq_ok.1 encrypted
  exact CipherState.length_of_encrypt ciphertext

theorem length_of_decryptAndHash
    (decrypted : state.decryptAndHash suite message = .ok (plaintext, next)) :
    message.length = plaintext.length + if state.hasKey then tagLength else 0 := by
  obtain ⟨cipher, text, rfl⟩ := decryptAndHash_eq_ok.1 decrypted
  exact CipherState.length_of_decrypt text

theorem hasKey_of_encryptAndHash
    (encrypted : state.encryptAndHash suite plaintext = .ok (message, next)) :
    next.hasKey = state.hasKey := by
  obtain ⟨cipher, ciphertext, rfl⟩ := encryptAndHash_eq_ok.1 encrypted
  exact CipherState.hasKey_of_encrypt ciphertext

theorem hasKey_of_decryptAndHash
    (decrypted : state.decryptAndHash suite message = .ok (plaintext, next)) :
    next.hasKey = state.hasKey := by
  obtain ⟨cipher, text, rfl⟩ := decryptAndHash_eq_ok.1 decrypted
  exact CipherState.hasKey_of_decrypt text

end SymmetricState

end Noise
