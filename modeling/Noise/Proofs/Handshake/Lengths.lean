import Mathlib
import Noise.Proofs.Handshake.WellFormed

/-!
# Lengths of messages

How many bytes a token takes on the wire depends on the function of the suite and
on whether the transcript has a key by then, and on nothing else.  Therefore the
length of a message tells the length of its payload, and the other way round.
The work on a message is followed operation by operation; what one does to the
lengths is its specification.
-/

namespace Noise

/-- The bytes that a token takes on the wire.  Under a key a static key is encrypted. -/
def Token.wireLength (dh : DhFunction) (keyed : Bool) : Token → Nat
  | .key .ephemeral => dh.keyLength
  | .key .static => dh.keyLength + if keyed then tagLength else 0
  | .dh .. | .psk => 0

/-- The bytes that tokens take on the wire, one after the other. -/
def tokensLength (dh : DhFunction) (hasPsk : Bool) : (keyed : Bool) → List Token → Nat
  | _, [] => 0
  | keyed, token :: rest =>
      token.wireLength dh keyed +
        tokensLength dh hasPsk (keyed || token.bearsKey hasPsk) rest

/-- The bytes of a message around its payload: those of the tokens, and the tag of the
payload under a key. -/
def frameLength (dh : DhFunction) (hasPsk keyed : Bool) (tokens : List Token) : Nat :=
  tokensLength dh hasPsk keyed tokens +
    if keyed || tokens.any (·.bearsKey hasPsk) then tagLength else 0

/-- Whether an error is about the length of a decrypted key. -/
def ProtocolError.isOfDecryptedKey : ProtocolError → Bool
  | .decryptedKeyLength .. => true
  | _ => false

/-! ## Errors of the primitives -/

namespace ProtocolError

variable {error : ProtocolError}

theorem isOfDecryptedKey_of_kind (other : error.kind ≠ .publicKey) :
    error.isOfDecryptedKey = false := by
  cases error with
  | decryptedKeyLength => exact absurd rfl other
  | _ => rfl

theorem isOfDecryptedKey_of_agree {pair : KeyPair} {key : Bytes}
    (failed : pair.agree key = .error error) :
    error.isOfDecryptedKey = false := by
  rcases KeyPair.error_of_agree failed with rfl | rfl <;> rfl

theorem isOfDecryptedKey_of_nextNonce {cipher : CipherFunction} {key : Bytes}
    {counter : Int} (failed : CipherState.nextNonce cipher key counter = .error error) :
    error.isOfDecryptedKey = false := by
  simp only [CipherState.nextNonce] at failed
  split at failed
  · obtain rfl := Except.error.inj failed
    rfl
  · split at failed
    · obtain rfl := Except.error.inj failed
      rfl
    · cases made : cipher.nonce? counter with
      | error cause =>
          rw [made] at failed
          obtain rfl := Except.error.inj failed
          rfl
      | ok nonce =>
          rw [made] at failed
          cases failed

variable {suite : Suite} {state : SymmetricState} {halt : Halt SymmetricState}

theorem isOfDecryptedKey_of_encryptAndHash {plaintext : Bytes}
    (failed : state.encryptAndHash suite plaintext = .error halt) :
    halt.error.isOfDecryptedKey = false := by
  obtain ⟨-, failed⟩ := SymmetricState.encryptAndHash_eq_error failed
  obtain ⟨-, key, -, failed⟩ := CipherState.encrypt_eq_error failed
  exact isOfDecryptedKey_of_nextNonce failed

theorem isOfDecryptedKey_of_decryptAndHash {message : Bytes}
    (failed : state.decryptAndHash suite message = .error halt) :
    halt.error.isOfDecryptedKey = false := by
  obtain ⟨-, failed⟩ := SymmetricState.decryptAndHash_eq_error failed
  obtain ⟨-, mismatch | ⟨key, -, failed⟩⟩ := CipherState.decrypt_eq_error failed
  · exact isOfDecryptedKey_of_kind (by rw [mismatch]; decide)
  · exact isOfDecryptedKey_of_nextNonce failed

end ProtocolError

namespace Interpreter

open Std.Do

set_option mvcgen.warning false

variable {setting : Setting}

/-! ## Operations -/

/-- Whether the transcript has a key. -/
abbrev Turn.hasKey (turn : Turn) : Bool := turn.state.symmetric.hasKey

/-- The own key pairs belong to the function of the suite. -/
def Turn.OfFunction (turn : Turn) (suite : Suite) : Prop :=
  ∀ kind, ∀ pair ∈ turn.state.own kind, pair.dh = suite.dh

/-- The work has changed the transcript and nothing else. -/
structure Turn.Mixes (before : Turn) (keyed : Bool) (after : Turn) : Prop where
  hasKey : after.hasKey = keyed
  toKeys : after.state.toKeys = before.state.toKeys
  wire : after.wire = before.wire

/-- The work has read so many bytes. -/
structure Turn.Reads (before : Turn) (count : Nat) (keyed : Bool) (after : Turn) :
    Prop where
  length : after.wire.length + count = before.wire.length
  hasKey : after.hasKey = keyed

/-- The work has written so many bytes. -/
structure Turn.Writes (before : Turn) (suite : Suite) (count : Nat) (keyed : Bool)
    (after : Turn) : Prop where
  length : after.wire.length = before.wire.length + count
  hasKey : after.hasKey = keyed
  ofFunction : after.OfFunction suite

namespace Turn

variable {before middle after : Turn} {suite : Suite} {first second : Nat}
  {keyed still : Bool}

theorem OfFunction.congr (ofFunction : before.OfFunction suite)
    (same : after.state.toKeys = before.state.toKeys) : after.OfFunction suite := by
  rw [OfFunction, same]
  exact ofFunction

theorem Mixes.reads (mixes : before.Mixes keyed after) :
    before.Reads 0 keyed after where
  length := congrArg List.length mixes.wire
  hasKey := mixes.hasKey

theorem Mixes.writes (mixes : before.Mixes keyed after)
    (ofFunction : before.OfFunction suite) :
    before.Writes suite 0 keyed after where
  length := congrArg List.length mixes.wire
  hasKey := mixes.hasKey
  ofFunction := ofFunction.congr mixes.toKeys

theorem Reads.trans (reads : before.Reads first keyed middle)
    (others : middle.Reads second still after) :
    before.Reads (first + second) still after where
  length := by rw [Nat.add_comm first, ← Nat.add_assoc, others.length, reads.length]
  hasKey := others.hasKey

theorem Writes.trans (writes : before.Writes suite first keyed middle)
    (others : middle.Writes suite second still after) :
    before.Writes suite (first + second) still after where
  length := by rw [others.length, writes.length, Nat.add_assoc]
  hasKey := others.hasKey
  ofFunction := others.ofFunction

end Turn

/-- The work ends like this, or fails otherwise than over the length of a
decrypted key. -/
abbrev Ends {α : Type} (ends : α → Turn → Prop) :
    PostCond α (.except ProtocolError (.arg Turn .pure)) :=
  post⟨fun value turn => ⌜ends value turn⌝, fun error _ =>
    ⌜error.isOfDecryptedKey = false⌝⟩

@[spec] theorem attempt_spec {α : Type} (result : Except ProtocolError α)
    (before : Turn) :
    ⦃fun turn => ⌜turn = before⌝⦄ attempt result
    ⦃post⟨fun value turn => ⌜result = .ok value ∧ turn = before⌝, fun error _ =>
      ⌜result = .error error⌝⟩⦄ := by
  mvcgen [attempt]

@[spec] theorem attemptSymmetric_spec {α : Type}
    (result : Except (Halt SymmetricState) α) (before : Turn) :
    ⦃fun turn => ⌜turn = before⌝⦄ attemptSymmetric result
    ⦃post⟨fun value turn => ⌜result = .ok value ∧ turn = before⌝,
      fun error _ => ⌜∃ halt, result = .error halt ∧ halt.error = error⌝⟩⦄ := by
  mvcgen [attemptSymmetric, mix]
  case vc2.h_2 halt _ _ _ _ => exact ⟨halt, rfl, rfl⟩

@[spec] theorem present_spec {α : Type} (operand : Operand) (value? : Option α)
    (before : Turn) :
    ⦃fun turn => ⌜turn = before⌝⦄ present operand value?
    ⦃Ends fun value turn => value? = some value ∧ turn = before⦄ := by
  mvcgen [present]

@[spec] theorem overhead_spec (before : Turn) :
    ⦃fun turn => ⌜turn = before⌝⦄ overhead
    ⦃Ends fun length turn => length = (if before.hasKey then tagLength else 0) ∧
    turn = before⦄ := by
  mvcgen [overhead]
  case vc1 same =>
    obtain rfl := same
    exact ⟨rfl, rfl⟩

@[spec] theorem take_spec (count : Nat) (before : Turn) :
    ⦃fun turn => ⌜turn = before⌝⦄ take count
    ⦃Ends fun bytes turn => bytes.length = count ∧
    before.Reads count before.hasKey turn⦄ := by
  mvcgen [take]
  case vc2 same _ _ enough _ =>
    obtain rfl := same
    have enough := Nat.not_lt.1 enough
    exact ⟨List.length_take_of_le enough,
      by rw [List.length_drop, Nat.sub_add_cancel enough], rfl⟩

@[spec] theorem takeRest_spec (before : Turn) :
    ⦃fun turn => ⌜turn = before⌝⦄ takeRest
    ⦃Ends fun bytes turn => bytes = before.wire ∧ turn.hasKey = before.hasKey⦄ := by
  mvcgen [takeRest]
  case vc2 same _ _ overhead _ _ _ _ =>
    obtain rfl := same
    obtain ⟨-, rfl⟩ := overhead
    exact ⟨rfl, rfl⟩

@[spec] theorem learn_spec (kind : KeyKind) (key : Bytes) (before : Turn) :
    ⦃fun turn => ⌜turn = before⌝⦄ learn kind key ⦃Ends fun _ turn =>
      before.Reads 0 before.hasKey turn⦄ := by
  mvcgen [learn]
  case vc1 same _ =>
    obtain rfl := same
    cases kind <;> exact ⟨rfl, rfl⟩

@[spec] theorem append_spec (bytes : Bytes) (before : Turn) :
    ⦃fun turn => ⌜turn = before⌝⦄ append bytes
    ⦃Ends fun _ turn => ∀ suite, before.OfFunction suite →
      before.Writes suite bytes.length before.hasKey turn⦄ := by
  mvcgen [append]
  case vc1 same _ =>
    obtain rfl := same
    intro suite ofFunction
    exact ⟨List.length_append, rfl, ofFunction⟩

@[spec] theorem encryptAndHash_spec (plaintext : Bytes) (before : Turn) :
    ⦃fun turn => ⌜turn = before⌝⦄ encryptAndHash setting plaintext
    ⦃Ends fun ciphertext turn =>
      ciphertext.length = plaintext.length + (if before.hasKey then tagLength else 0) ∧
        before.Mixes before.hasKey turn⦄ := by
  mvcgen [encryptAndHash, mix]
  case vc1 same _ _ encrypted _ =>
    obtain ⟨encrypted, rfl⟩ := encrypted
    obtain rfl := same
    exact ⟨SymmetricState.length_of_encryptAndHash encrypted,
      SymmetricState.hasKey_of_encryptAndHash encrypted, rfl, rfl⟩
  case vc2 =>
    rintro ⟨halt, failed, rfl⟩
    exact ProtocolError.isOfDecryptedKey_of_encryptAndHash failed

@[spec] theorem decryptAndHash_spec (message : Bytes) (before : Turn) :
    ⦃fun turn => ⌜turn = before⌝⦄ decryptAndHash setting message
    ⦃Ends fun plaintext turn =>
      message.length = plaintext.length + (if before.hasKey then tagLength else 0) ∧
        before.Mixes before.hasKey turn⦄ := by
  mvcgen [decryptAndHash, mix]
  case vc1 same _ _ decrypted _ =>
    obtain ⟨decrypted, rfl⟩ := decrypted
    obtain rfl := same
    exact ⟨SymmetricState.length_of_decryptAndHash decrypted,
      SymmetricState.hasKey_of_decryptAndHash decrypted, rfl, rfl⟩
  case vc2 =>
    rintro ⟨halt, failed, rfl⟩
    exact ProtocolError.isOfDecryptedKey_of_decryptAndHash failed

@[spec] theorem check_spec (kind : KeyKind) (key : Bytes) (before : Turn) :
    ⦃fun turn => ⌜turn = before⌝⦄ check setting kind key ⦃Ends fun _ turn =>
      turn = before⦄ := by
  mvcgen [check]

@[spec] theorem agreedSecret_spec (own peer : KeyKind) (before : Turn) :
    ⦃fun turn => ⌜turn = before⌝⦄ agreedSecret own peer ⦃Ends fun _ turn =>
      turn = before⦄ := by
  mvcgen [agreedSecret, ownPair, peerKey] with
    grind [ProtocolError.isOfDecryptedKey_of_agree]

@[spec] theorem mixAgreement_spec (initiator responder : KeyKind) (before : Turn) :
    ⦃fun turn => ⌜turn = before⌝⦄ mixAgreement setting initiator responder
    ⦃Ends fun _ turn => before.Mixes true turn⦄ := by
  mvcgen [mixAgreement, mix] with (subst_vars; exact ⟨rfl, rfl, rfl⟩)

@[spec] theorem mixSharedSecret_spec (before : Turn) :
    ⦃fun turn => ⌜turn = before⌝⦄ mixSharedSecret setting ⦃Ends fun _ turn =>
      before.Mixes true turn⦄ := by
  mvcgen [mixSharedSecret, sharedSecret, mix]
  case vc1 same _ _ given _ =>
    obtain ⟨-, rfl⟩ := given
    obtain rfl := same
    exact ⟨rfl, rfl, rfl⟩

@[spec] theorem mixEphemeral_spec (key : Bytes) (before : Turn) :
    ⦃fun turn => ⌜turn = before⌝⦄ mixEphemeral setting key
    ⦃Ends fun _ turn => before.Mixes (before.hasKey || setting.hasPsk) turn⦄ := by
  mvcgen [mixEphemeral, mix]
  case vc1 same _ hasPsk _ =>
    obtain rfl := same
    rw [hasPsk, Bool.or_true]
    exact ⟨rfl, rfl, rfl⟩
  case vc2 same _ noPsk =>
    obtain rfl := same
    rw [Bool.eq_false_of_not_eq_true noPsk, Bool.or_false]
    exact ⟨rfl, rfl, rfl⟩

@[spec] theorem ephemeralPair_spec (before : Turn) :
    ⦃fun turn => ⌜turn = before ∧
    before.OfFunction setting.suite⌝⦄ ephemeralPair setting ⦃Ends fun pair turn =>
      pair.dh = setting.suite.dh ∧
        before.Writes setting.suite 0 before.hasKey turn⦄ := by
  mvcgen [ephemeralPair]
  case vc1 ready pair held =>
    obtain ⟨rfl, ofFunction⟩ := ready
    exact ⟨ofFunction .ephemeral pair held, rfl, rfl, ofFunction⟩
  case vc2 ready _ pair _ =>
    obtain ⟨rfl, ofFunction⟩ := ready
    refine ⟨rfl, rfl, rfl, ?_⟩
    rintro (_ | _) other held
    · obtain rfl := Option.some.inj held
      rfl
    · exact ofFunction .static other held

/-! ## Tokens -/

@[spec] theorem readToken_spec (token : Token) (before : Turn) :
    ⦃fun turn => ⌜turn = before⌝⦄ readToken setting token
    ⦃Ends fun _ turn => before.Reads (token.wireLength setting.suite.dh before.hasKey)
      (before.hasKey || token.bearsKey setting.hasPsk) turn⦄ := by
  cases token with
  | key kind =>
      cases kind with
      | ephemeral =>
          mvcgen [readToken]
          case vc1 same _ _ took _ _ learns _ _ checked _ _ =>
            obtain rfl := same
            obtain rfl := checked
            obtain ⟨-, reads⟩ := took
            intro mixes
            rw [Token.bearsKey, ← reads.hasKey, ← learns.hasKey]
            exact (reads.trans learns).trans mixes.reads
      | static =>
          mvcgen [readToken]
          -- The field is as long as an encrypted key, and decryption takes off what
          -- encryption has added.
          case vc1 same _ _ overhead _ _ took _ _ wrong _ opened =>
            obtain rfl := same
            obtain ⟨rfl, rfl⟩ := overhead
            obtain ⟨length, reads⟩ := took
            obtain ⟨opened, -⟩ := opened
            rw [reads.hasKey] at opened
            omega
          case vc2 same _ _ overhead _ _ took _ _ _ _ opened _ _ learns _ _ =>
            obtain rfl := same
            obtain ⟨rfl, rfl⟩ := overhead
            obtain ⟨-, reads⟩ := took
            obtain ⟨-, mixes⟩ := opened
            rintro rfl
            rw [Token.bearsKey, Bool.or_false]
            exact (reads.trans mixes.reads).trans
              (mixes.hasKey.trans reads.hasKey ▸ learns)
  | dh initiator responder =>
      mvcgen [readToken]
      case vc1 same _ _ =>
        obtain rfl := same
        rw [Token.bearsKey, Bool.or_true]
        exact Turn.Mixes.reads
  | psk =>
      mvcgen [readToken]
      case vc1 same _ _ =>
        obtain rfl := same
        rw [Token.bearsKey, Bool.or_true]
        exact Turn.Mixes.reads

@[spec] theorem writeToken_spec (token : Token) (before : Turn) :
    ⦃fun turn => ⌜turn = before ∧
    before.OfFunction setting.suite⌝⦄ writeToken setting token
    ⦃Ends fun _ turn =>
      before.Writes setting.suite (token.wireLength setting.suite.dh before.hasKey)
        (before.hasKey || token.bearsKey setting.hasPsk) turn⦄ := by
  cases token with
  | key kind =>
      cases kind with
      | ephemeral =>
          mvcgen [writeToken]
          case vc1 ready => exact ⟨trivial, ready.1 ▸ ready.2⟩
          case vc2 ready pair _ made _ _ appends _ _ =>
            obtain ⟨rfl, -⟩ := ready
            obtain ⟨ofSuite, draws⟩ := made
            have writes := draws.trans (appends _ draws.ofFunction)
            intro mixes
            rw [KeyPair.length_publicKey, ofSuite, Nat.zero_add] at writes
            rw [Token.bearsKey, ← draws.hasKey, ← writes.hasKey]
            exact writes.trans (mixes.writes writes.ofFunction)
      | static =>
          mvcgen [writeToken, ownPair]
          case vc1 ready pair _ held _ _ encrypted _ _ =>
            obtain ⟨rfl, ofFunction⟩ := ready
            obtain ⟨held, rfl⟩ := held
            obtain ⟨length, mixes⟩ := encrypted
            intro appends
            have writes := mixes.writes ofFunction
            have writes := writes.trans (appends _ writes.ofFunction)
            rw [length, KeyPair.length_publicKey, ofFunction .static pair held,
              Nat.zero_add, mixes.hasKey] at writes
            rw [Token.bearsKey, Bool.or_false]
            exact writes
  | dh initiator responder =>
      mvcgen [writeToken]
      case vc1 ready _ _ =>
        obtain ⟨rfl, ofFunction⟩ := ready
        intro mixes
        rw [Token.bearsKey, Bool.or_true]
        exact mixes.writes ofFunction
  | psk =>
      mvcgen [writeToken]
      case vc1 ready _ _ =>
        obtain ⟨rfl, ofFunction⟩ := ready
        intro mixes
        rw [Token.bearsKey, Bool.or_true]
        exact mixes.writes ofFunction

@[spec] theorem readTokens_spec (tokens : List Token) (before : Turn) :
    ⦃fun turn => ⌜turn = before⌝⦄ tokens.forM (readToken setting)
    ⦃Ends fun _ turn =>
      before.Reads (tokensLength setting.suite.dh setting.hasPsk before.hasKey tokens)
        (before.hasKey || tokens.any (·.bearsKey setting.hasPsk)) turn⦄ := by
  induction tokens generalizing before with
  | nil =>
      mvcgen [List.forM]
      case vc1 same =>
        obtain rfl := same
        rw [List.any_nil, Bool.or_false]
        exact ⟨rfl, rfl⟩
  | cons token rest ih =>
      mvcgen [List.forM, ih]
      case vc1 same _ _ reads _ _ =>
        obtain rfl := same
        intro others
        rw [tokensLength, List.any_cons, ← Bool.or_assoc, ← reads.hasKey]
        exact reads.trans others

@[spec] theorem writeTokens_spec (tokens : List Token) (before : Turn) :
    ⦃fun turn => ⌜turn = before ∧
    before.OfFunction setting.suite⌝⦄ tokens.forM (writeToken setting)
    ⦃Ends fun _ turn => before.Writes setting.suite
      (tokensLength setting.suite.dh setting.hasPsk before.hasKey tokens)
      (before.hasKey || tokens.any (·.bearsKey setting.hasPsk)) turn⦄ := by
  induction tokens generalizing before with
  | nil =>
      mvcgen [List.forM]
      case vc1 ready =>
        obtain ⟨rfl, ofFunction⟩ := ready
        rw [List.any_nil, Bool.or_false]
        exact ⟨rfl, rfl, ofFunction⟩
  | cons token rest ih =>
      mvcgen [List.forM, ih]
      case vc1 ready => exact ⟨trivial, ready.1 ▸ ready.2⟩
      case vc2 writes => exact ⟨trivial, writes.ofFunction⟩
      case vc3 ready _ _ writes _ _ =>
        obtain ⟨rfl, -⟩ := ready
        intro others
        rw [tokensLength, List.any_cons, ← Bool.or_assoc, ← writes.hasKey]
        exact writes.trans others

/-! ## Messages -/

@[spec] theorem finish_spec (isFinal : Bool) (before : Turn) :
    ⦃fun turn => ⌜turn = before⌝⦄ finish setting isFinal ⦃Ends fun _ turn =>
      turn.wire = before.wire⦄ := by
  mvcgen [finish, mix] with (subst_vars; rfl)

theorem readMessage_spec (tokens : List Token) (isFinal : Bool) (before : Turn) :
    ⦃fun turn => ⌜turn = before⌝⦄ readMessage setting tokens isFinal
    ⦃Ends fun part _ =>
      part.1.length + frameLength setting.suite.dh setting.hasPsk before.hasKey tokens =
      before.wire.length⦄ := by
  mvcgen [readMessage, readPayload]
  case vc1 same _ _ reads _ _ rest _ _ opened _ _ _ =>
    obtain rfl := same
    obtain ⟨rfl, sameKey⟩ := rest
    obtain ⟨length, -⟩ := opened
    rw [sameKey, reads.hasKey] at length
    rw [← reads.length, length, frameLength]
    omega

theorem writeMessage_spec (tokens : List Token) (isFinal : Bool) (payload : Bytes)
    (before : Turn) :
    ⦃fun turn => ⌜turn = before ∧
    before.OfFunction setting.suite⌝⦄ writeMessage setting tokens isFinal payload
    ⦃Ends fun _ turn => turn.wire.length =
      before.wire.length +
        frameLength setting.suite.dh setting.hasPsk before.hasKey tokens +
          payload.length⦄ := by
  mvcgen [writeMessage, writePayload]
  case vc1 ready => exact ⟨trivial, ready.1 ▸ ready.2⟩
  case vc2 ready _ _ writes _ _ encrypted _ _ appends _ _ =>
    obtain ⟨rfl, -⟩ := ready
    obtain ⟨length, mixes⟩ := encrypted
    intro sameWire
    have appended := (appends _ (writes.ofFunction.congr mixes.toKeys)).length
    rw [writes.hasKey] at length
    rw [sameWire, appended, mixes.wire, writes.length, length, frameLength]
    omega

/-! ## Programs -/

/-- What a specification says of a result. -/
def Ends.Holds {α : Type} (ends : α → Turn → Prop) :
    EStateM.Result ProtocolError Turn α → Prop
  | .ok value turn => ends value turn
  | .error error _ => error.isOfDecryptedKey = false

/-- A program that does specified work ends as specified. -/
theorem Stage.Matches.ends {α : Type} {stage : Stage} {after : Machine → Prop}
    {result : Machine → α} {ran : Except Stopped Machine} {work : Work α}
    {before : Turn} {ready : Turn → Prop} {ends : α → Turn → Prop}
    (same : stage.Matches after result ran (work.run before))
    (spec : ⦃fun turn => ⌜ready turn⌝⦄ work ⦃Ends ends⦄) (holds : ready before) :
    (∀ next, ran = .ok next → ends (result next) (stage.view next)) ∧
      ∀ stopped, ran = .error stopped → stopped.error.isOfDecryptedKey = false := by
  have sound := EStateM.of_wp_run_eq rfl (Ends.Holds ends) fun _ => spec before holds
  constructor
  · rintro next rfl
    rw [same.1] at sound
    exact sound
  · rintro stopped rfl
    rw [show work.run before = _ from same] at sound
    exact sound

variable {suite : Suite} {attacker : AttackerModel} {place : Place} {message : Message}
  {generate : KeyGenerator} {state : HandshakeState}

/-- A message that is written has the length that its tokens and its payload give it. -/
theorem ends_of_write (ofFunction : ∀ kind, ∀ pair ∈ state.own kind, pair.dh = suite.dh)
    (payload : Bytes) :
    match state.write suite generate
      (Step.ofMessage suite attacker place message).write payload with
    | .ok outcome => outcome.message.length =
        frameLength suite.dh place.hasPsk state.symmetric.hasKey message.tokens +
          payload.length
    | .error stopped => stopped.error.isOfDecryptedKey = false := by
  obtain ⟨ends, fails⟩ :=
    (matches_write suite attacker place message generate state payload).ends
      (writeMessage_spec _ _ _ _) ⟨rfl, ofFunction⟩
  rw [HandshakeState.write]
  cases ran : Machine.run suite generate { state, frame := { payload } }
      (Step.ofMessage suite attacker place message).write with
  | error stopped => exact fails stopped ran
  | ok last =>
      exact (ends last ran).trans (congrArg (· + payload.length) (Nat.zero_add _))

/-- The payload of a message that is read has the length that the tokens leave it. -/
theorem ends_of_read (keyed : state.symmetric.hasKey = place.isKeyed) (input : Bytes) :
    match state.read suite generate
      (Step.ofMessage suite attacker place message).read input with
    | .ok outcome => outcome.message.length +
        frameLength suite.dh place.hasPsk state.symmetric.hasKey message.tokens =
          input.length
    | .error stopped => stopped.error.isOfDecryptedKey = false := by
  obtain ⟨ends, fails⟩ :=
    (matches_read suite attacker place message generate state keyed input).ends
      (readMessage_spec _ _ _) rfl
  rw [HandshakeState.read]
  cases ran : Machine.run suite generate { state, frame := { input } }
      (Step.ofMessage suite attacker place message).read with
  | error stopped => exact fails stopped ran
  | ok last => exact ends last ran

end Interpreter

end Noise
