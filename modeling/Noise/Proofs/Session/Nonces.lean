import Mathlib.Data.List.Nodup
import Mathlib.Logic.Function.Iterate
import Noise.Proofs.Session.Binding
import Noise.Proofs.Session.FailClosed

/-!
# Nonces and keys of the transport phase

A session counts the transport messages of each direction in the nonce of that
direction's cipher, and the key of the cipher goes on by one for each replacement.
Therefore no nonce is ever used twice, and the nonce that a replacement uses is
never used for a message.
-/

namespace Noise

/-! ## Nonces of a cipher -/

namespace CipherFunction

theorem length_nonce (cipher : CipherFunction) (counter : Nat) :
    (cipher.nonce counter).length = 12 := by
  cases cipher <;> simp [nonce]

/-- Counters that fit into a nonce are told apart by it, in either byte order. -/
theorem nonce_injective {cipher : CipherFunction} {counter other : Nat}
    (fits : counter < Bytes.capacity 8) (otherFits : other < Bytes.capacity 8)
    (same : cipher.nonce counter = cipher.nonce other) :
    counter = other := by
  have sameDigits : Bytes.ofNatLE 8 counter = Bytes.ofNatLE 8 other := by
    cases cipher with
    | chaChaPoly => exact List.append_cancel_left same
    | aesGcm => exact List.reverse_injective (List.append_cancel_left same)
  have sameValue := congrArg Bytes.toNatLE sameDigits
  rw [Bytes.toNatLE_ofNatLE, Bytes.toNatLE_ofNatLE, Nat.mod_eq_of_lt fits,
    Nat.mod_eq_of_lt otherFits]
    at sameValue
  exact sameValue

end CipherFunction

/-- The counters below the last one have nonces of their own, and none of them
has that of the last. -/
theorem nonces_of_range (cipher : CipherFunction) {count : Nat}
    (bounded : count ≤ maxNonce) :
    ((List.range count).map cipher.nonce).Nodup ∧
      cipher.nonce maxNonce ∉ (List.range count).map cipher.nonce := by
  have room : maxNonce < Bytes.capacity 8 := by decide
  constructor
  · apply List.Nodup.map_on ?_ List.nodup_range
    intro counter there other otherThere same
    rw [List.mem_range] at there otherThere
    exact CipherFunction.nonce_injective (by omega) (by omega) same
  · intro used
    obtain ⟨counter, there, same⟩ := List.mem_map.1 used
    rw [List.mem_range] at there
    have last := CipherFunction.nonce_injective (by omega) room same
    omega

/-- The counters below the last one are let through, and each of them as its
own nonce. -/
theorem CipherState.nextNonce_eq_ok {cipher : CipherFunction} {key nonce : Bytes}
    {counter : Int} (length : key.length = keyLength) (nonneg : 0 ≤ counter) :
    nextNonce cipher key counter = .ok nonce ↔
      counter < maxNonce ∧ nonce = cipher.nonce counter.toNat := by
  rw [nextNonce, length, keyLength_mem_keyLengths]
  by_cases exhausted : (maxNonce : Int) ≤ counter
  · simp [exhausted]
  · have left := Int.not_le.1 exhausted
    simp [exhausted, nonce?_eq_ok cipher nonneg left, mapError_ok, left, eq_comm]

/-! ## Channels -/

namespace Session

variable {session : Session} {channel : Channel} {action other : Action}

/-- The two directions never share a channel. -/
theorem channel_injective (chosen : session.channel action = .ok channel)
    (otherChosen : session.channel other = .ok channel) : action = other := by
  simp only [Session.channel] at chosen otherChosen
  cases action <;> cases other <;> grind

theorem usesChannel_of_channel (chosen : session.channel action = .ok channel) :
    session.protocol.usesChannel channel = true := by
  simp only [Session.channel] at chosen
  cases channel <;> grind [Protocol.usesChannel]

@[simp] theorem channel_moved (cipher : CipherState) (count : Nat) :
    (session.moved channel cipher count).channel = session.channel := by
  cases channel <;> rfl

/-- What is done to the cipher of one direction leaves that of the other alone. -/
theorem cipher_moved_elsewhere {elsewhere : Channel} (different : action ≠ other)
    (chosen : session.channel action = .ok channel)
    (otherChosen : session.channel other = .ok elsewhere) (cipher : CipherState)
    (count : Nat) :
    (session.moved channel cipher count).cipher elsewhere =
      session.cipher elsewhere := by
  apply cipher_moved_of_ne
  rintro rfl
  exact different (channel_injective chosen otherChosen)

/-- The channel of a direction that is used has a key. -/
theorem InTransport.exists_key (inside : session.InTransport)
    (chosen : session.channel action = .ok channel) :
    ∃ key, (session.cipher channel).key = some key := by
  have keyed := inside.hasKey channel
  rw [usesChannel_of_channel chosen] at keyed
  exact Option.isSome_iff_exists.1 keyed

theorem InTransport.nextNonce_eq_ok (inside : session.InTransport) {key nonce : Bytes}
    (held : (session.cipher channel).key = some key) :
    CipherState.nextNonce session.protocol.suite.cipher key
      (session.cipher channel).nonce = .ok nonce ↔
      (session.cipher channel).nonce < maxNonce ∧
        nonce = session.protocol.suite.cipher.nonce
          (session.cipher channel).nonce.toNat :=
  CipherState.nextNonce_eq_ok ((inside.wellFormed channel).length_key key held)
    (inside.wellFormed channel).nonce_nonneg

end Session

/-! ## Calls of the transport phase -/

/-- The direction that a call is about. -/
def Session.Call.action : Session.Call → Action
  | .send .. => .send
  | .recv .. => .receive
  | .rekey action => action

def Session.Call.isRekey : Session.Call → Bool
  | .rekey _ => true
  | _ => false

/-- A call of the transport phase that has returned, with the session before it. -/
structure Transfer where
  session : Session
  call : Session.Call
  bytes : Bytes

/-- The cipher that a split leaves for a channel. -/
def Ending.cipher (ending : Ending) : Channel → CipherState
  | .a => ending.first
  | .b => ending.second

namespace Transfer

/-- Whether a message went in that direction. -/
def isMessage (action : Action) (transfer : Transfer) : Bool :=
  transfer.call.action = action && !transfer.call.isRekey

/-- Whether the key of that direction was replaced. -/
def isRekey (action : Action) (transfer : Transfer) : Bool :=
  transfer.call.action = action && transfer.call.isRekey

/-- The cipher that the call found. -/
def cipher (transfer : Transfer) : CipherState :=
  match transfer.session.channel transfer.call.action with
  | .ok channel => transfer.session.cipher channel
  | .error _ => {}

/-- The nonce of the counter at which the cipher stood. -/
def nonce (transfer : Transfer) : Bytes :=
  transfer.session.protocol.suite.cipher.nonce transfer.cipher.nonce.toNat

/-- A text that was sent has been encrypted under the key that the cipher
had, with that nonce. -/
def IsSealed (transfer : Transfer) : Prop :=
  ∀ generate plaintext, transfer.call = .send generate plaintext →
    ∃ key, transfer.cipher.key = some key ∧
      transfer.bytes =
        transfer.session.protocol.suite.cipher.encrypt key transfer.nonce [] plaintext

theorem exists_send {transfer : Transfer} (sends : transfer.isMessage .send = true) :
    ∃ generate plaintext, transfer.call = .send generate plaintext := by
  obtain ⟨session, call, bytes⟩ := transfer
  cases call with
  | send generate plaintext => exact ⟨generate, plaintext, rfl⟩
  | recv => cases sends
  | rekey action => simp [isMessage, Session.Call.isRekey] at sends

variable {transfer : Transfer} {channel : Channel} {action : Action}

/-- A call counts for its own direction only. -/
theorem countP_of_ne (different : transfer.call.action ≠ action) :
    [transfer].countP (·.isMessage action) = 0 ∧
    [transfer].countP (·.isRekey action) = 0 := by
  simp [isMessage, isRekey, different]

theorem cipher_eq
    (chosen : transfer.session.channel transfer.call.action = .ok channel) :
    transfer.cipher = transfer.session.cipher channel := by
  simp only [cipher, chosen]

end Transfer

namespace Session

variable {session : Session} {channel : Channel} {call : Call} {bytes : Bytes}

/-- What a call of the transport phase has done to the cipher of its
direction when it returns. -/
inductive Transfers (session : Session) (call : Call) : Session → Prop where
  | message {channel : Channel} :
      call.isRekey = false → session.channel call.action = .ok channel →
      (session.cipher channel).nonce < maxNonce →
      Transfers session call
        (session.moved channel
          { session.cipher channel with nonce := (session.cipher channel).nonce + 1 } 1)
  | rekey {channel : Channel} :
      call.isRekey = true → session.channel call.action = .ok channel →
      Transfers session call
        (session.moved channel
          { session.cipher channel with
            key :=
              (session.cipher channel).key.map
                (CipherState.nextKey session.protocol.suite.cipher) } 0)

theorem InTransport.transfers (inside : session.InTransport)
    (returned : (session.call call).result = .ok bytes) :
    session.Transfers call (session.call call).session ∧
    Transfer.IsSealed { session, call, bytes } := by
  cases call with
  | send generate plaintext =>
      obtain ⟨-, channel, next, chosen, -, encrypted, after⟩ :=
        of_send_transport returned inside.late
      obtain ⟨key, held⟩ := inside.exists_key chosen
      rcases CipherState.encrypt_eq_ok.1 encrypted with
        ⟨keyless, -⟩ | ⟨key, nonce, held, fresh, rfl, rfl⟩
      · cases held.symm.trans keyless
      · obtain ⟨below, rfl⟩ := (inside.nextNonce_eq_ok held).1 fresh
        constructor
        · rw [Session.call, after]
          exact .message rfl chosen below
        · rintro generate plaintext ⟨⟩
          rw [Transfer.nonce, Transfer.cipher_eq chosen]
          exact ⟨key, held, rfl⟩
  | recv generate message =>
      obtain ⟨-, channel, next, chosen, decrypted, after⟩ :=
        of_recv_transport returned inside.late
      obtain ⟨key, held⟩ := inside.exists_key chosen
      rcases CipherState.decrypt_eq_ok.1 decrypted with
        ⟨keyless, -⟩ | ⟨key, nonce, held, fresh, -, rfl⟩
      · cases held.symm.trans keyless
      · obtain ⟨below, -⟩ := (inside.nextNonce_eq_ok held).1 fresh
        constructor
        · rw [Session.call, after]
          exact .message rfl chosen below
        · rintro _ _ ⟨⟩
  | rekey action =>
      constructor
      · cases rekeyed : session.rekey action with
        | error error =>
            rw [Session.call, rekeyed] at returned
            cases returned
        | ok next =>
            obtain ⟨-, channel, cipher, chosen, replaced, rfl⟩ := of_rekey rekeyed
            rw [(inside.wellFormed channel).rekey_eq] at replaced
            obtain rfl := Except.ok.inj replaced
            rw [Session.call, rekeyed, ← moved_zero]
            exact .rekey rfl chosen
      · rintro _ _ ⟨⟩

/-- The transport call that an event carries out. -/
def transfer? (session : Session) : Event → Option Transfer
  | .call call =>
      if session.isComplete then
        (session.call call).result.toOption.map fun bytes => { session, call, bytes }
      else none
  | .clear => none

theorem transfer?_eq_none (going : session.isComplete = false) (event : Event) :
    session.transfer? event = none := by
  cases event with
  | clear => rfl
  | call call => simp [transfer?, going]

/-- The transport calls that returned in the course of a history. -/
def transfers (session : Session) : List Event → List Transfer
  | [] => []
  | event :: rest =>
      (session.transfer? event).toList ++ transfers (session.next event) rest

theorem transfers_append (session : Session) (history : List Event) (event : Event) :
    session.transfers (history ++ [event]) =
      session.transfers history ++
        ((session.follow history).transfer? event).toList := by
  induction history generalizing session with
  | nil => simp [transfers, follow]
  | cons first rest ih =>
      rw [List.cons_append, transfers, ih, transfers, List.append_assoc]
      rfl

/-! ## The tally of a session -/

/-- The ciphers of a session, told by what the split gave it and by the calls that
have returned since. -/
structure Tallies (split : Channel → CipherState) (session : Session)
    (transfers : List Transfer) : Prop where
  nonce : ∀ action channel, session.channel action = .ok channel →
    (session.cipher channel).nonce = transfers.countP (·.isMessage action)
  key : ∀ action channel, session.channel action = .ok channel →
    (session.cipher channel).key =
      (split channel).key.map
        (CipherState.nextKey session.protocol.suite.cipher)^[transfers.countP
          (·.isRekey action)]
  bounded : ∀ action, transfers.countP (·.isMessage action) ≤ maxNonce
  silent : ∀ action error, session.channel action = .error error →
    ∀ transfer ∈ transfers, transfer.call.action ≠ action
  sound : ∀ transfer ∈ transfers, transfer.session.protocol = session.protocol ∧
    transfer.IsSealed
  nonces : (transfers.filter (·.isMessage .send)).map (·.nonce) =
    (List.range (transfers.countP (·.isMessage .send))).map
      session.protocol.suite.cipher.nonce

variable {split : Channel → CipherState} {transfers : List Transfer}

/-- The next message has the nonce of the number of messages before it. -/
theorem Tallies.nonces_append {transfer : Transfer}
    (tallies : Tallies split session transfers) (before : transfer.session = session)
    (chosen : session.channel transfer.call.action = .ok channel) :
    ((transfers ++ [transfer]).filter (·.isMessage .send)).map (·.nonce) =
      (List.range ((transfers ++ [transfer]).countP (·.isMessage .send))).map
        session.protocol.suite.cipher.nonce := by
  rw [List.filter_append, List.map_append, tallies.nonces, List.countP_append]
  cases sends : transfer.isMessage .send with
  | false => simp [sends]
  | true =>
      have sending : transfer.call.action = .send := by
        simp only [Transfer.isMessage, Bool.and_eq_true, decide_eq_true_eq] at sends
        exact sends.1
      have now : transfer.nonce =
          session.protocol.suite.cipher.nonce (transfers.countP
            (·.isMessage .send)) := by
        subst before
        rw [Transfer.nonce, Transfer.cipher_eq chosen,
          tallies.nonce _ _ (sending ▸ chosen), Int.toNat_natCast]
      simp [sends, List.range_succ, now]

/-- A call that moves the cipher of its direction on is counted, and the other
direction is left alone. -/
theorem Tallies.extend {transfer : Transfer} {cipher : CipherState}
    (tallies : Tallies split session transfers) (before : transfer.session = session)
    (chosen : session.channel transfer.call.action = .ok channel)
    (nonce : cipher.nonce =
      (session.cipher channel).nonce +
        [transfer].countP (·.isMessage transfer.call.action))
    (key : cipher.key = (session.cipher channel).key.map
      (CipherState.nextKey session.protocol.suite.cipher)^[[transfer].countP
        (·.isRekey transfer.call.action)])
    (bounded : cipher.nonce ≤ maxNonce) (isSealed : transfer.IsSealed) (count : Nat) :
    Tallies split (session.moved channel cipher count) (transfers ++ [transfer]) := by
  have same : (session.moved channel cipher count).protocol = session.protocol :=
    protocol_withCipher _
  have counted : ∀ action other, session.channel action = .ok other →
      ((session.moved channel cipher count).cipher other).nonce =
        (transfers ++ [transfer]).countP (·.isMessage action) := by
    intro action other found
    rw [List.countP_append]
    by_cases here : transfer.call.action = action
    · subst here
      obtain rfl := Except.ok.inj (chosen.symm.trans found)
      rw [cipher_moved_self, nonce, tallies.nonce _ _ chosen]
      rfl
    · rw [cipher_moved_elsewhere here chosen found, (Transfer.countP_of_ne here).1]
      exact tallies.nonce action other found
  constructor
  · rw [channel_moved]
    exact counted
  · intro action other found
    rw [channel_moved] at found
    rw [List.countP_append, same]
    by_cases here : transfer.call.action = action
    · subst here
      obtain rfl := Except.ok.inj (chosen.symm.trans found)
      rw [cipher_moved_self, key, tallies.key _ _ chosen, Option.map_map,
        ← Function.iterate_add, Nat.add_comm]
    · rw [cipher_moved_elsewhere here chosen found, (Transfer.countP_of_ne here).2]
      exact tallies.key action other found
  · intro action
    by_cases here : transfer.call.action = action
    · subst here
      have reached := counted _ _ chosen
      rw [cipher_moved_self] at reached
      omega
    · rw [List.countP_append, (Transfer.countP_of_ne here).1]
      exact tallies.bounded action
  · intro action error refused other mem
    rw [channel_moved] at refused
    rcases List.mem_append.1 mem with earlier | last
    · exact tallies.silent action error refused other earlier
    · obtain rfl := List.mem_singleton.1 last
      rintro rfl
      cases chosen.symm.trans refused
  · intro other mem
    rw [same]
    rcases List.mem_append.1 mem with earlier | last
    · exact tallies.sound other earlier
    · obtain rfl := List.mem_singleton.1 last
      exact ⟨congrArg Session.protocol before, isSealed⟩
  · rw [same]
    exact tallies.nonces_append before chosen

/-- A call that returns is counted. -/
theorem Tallies.transfer (tallies : Tallies split session transfers)
    (inside : session.InTransport) (returned : (session.call call).result = .ok bytes) :
    Tallies split (session.call call).session
      (transfers ++ [Transfer.mk session call bytes]) := by
  obtain ⟨moves, isSealed⟩ := inside.transfers returned
  generalize (session.call call).session = after at moves ⊢
  cases moves with
  | message kept chosen below =>
      refine tallies.extend rfl chosen ?_ ?_ (Int.add_one_le_of_lt below) isSealed 1
      · simp [Transfer.isMessage, kept]
      · simp [Transfer.isRekey, kept]
  | rekey replaced chosen =>
      refine tallies.extend rfl chosen ?_ ?_ ?_ isSealed 0
      · simp [Transfer.isMessage, replaced]
      · simp [Transfer.isRekey, replaced]
      · change (session.cipher _).nonce ≤ _
        rw [tallies.nonce _ _ chosen]
        exact Int.ofNat_le.2 (tallies.bounded _)

/-- When the handshake ends there is nothing to count yet. -/
theorem tallies_of_advance {outcome : Outcome} {chain : Chain} {suite : Suite}
    (ends : outcome.ending = some (chain.ending suite)) :
    Tallies (chain.ending suite).cipher (session.advance outcome) [] := by
  have given : ∀ action channel,
      (session.advance outcome).channel action = .ok channel →
      (session.advance outcome).cipher channel =
        (chain.ending suite).cipher channel := by
    intro action channel chosen
    have used := usesChannel_of_channel chosen
    rw [protocol_advance] at used
    rw [advance, ends]
    cases channel with
    | a => rfl
    | b =>
        simp only [Protocol.usesChannel, Bool.not_eq_true'] at used
        simp only [Session.cipher, Ending.cipher, used, Bool.false_eq_true, ↓reduceIte]
  constructor
  · intro action channel chosen
    rw [given action channel chosen]
    cases channel <;> rfl
  · intro action channel chosen
    rw [given action channel chosen]
    exact (Option.map_id_apply).symm
  · intro action
    exact Nat.zero_le _
  · intro action error refused transfer mem
    cases mem
  · intro transfer mem
    cases mem
  · rfl

theorem exists_channel {action : Action} (complete : session.isComplete)
    (interactive : session.protocol.isOneWay = false) :
    ∃ channel, session.channel action = .ok channel := by
  simp only [Session.channel, complete, interactive, Bool.not_true, Bool.false_eq_true,
    ↓reduceIte]
  split
  · exact ⟨_, rfl⟩
  · exact ⟨_, rfl⟩

/-- As long as there are nonces left, texts that are short enough are sent. -/
theorem InTransport.exists_message {generate : KeyGenerator} {plaintext : Bytes}
    (inside : session.InTransport) (chosen : session.channel .send = .ok channel)
    (room : (session.cipher channel).nonce < maxNonce)
    (fits : plaintext.length + tagLength ≤ maxMessageLength) :
    ∃ message, (session.call (.send generate plaintext)).result = .ok message := by
  obtain ⟨key, held⟩ := inside.exists_key chosen
  have fresh := (inside.nextNonce_eq_ok held).2 ⟨room, rfl⟩
  have notEarly : ¬ session.counter ≤ session.protocol.finalIndex :=
    Nat.not_le.2 inside.late
  have notTooLarge : ¬ maxMessageLength < plaintext.length + tagLength :=
    Nat.not_lt.2 fits
  simp only [Session.call, send, inside.usable, notEarly, chosen, notTooLarge,
    Bool.false_eq_true, ↓reduceIte]
  rw [CipherState.encrypt_eq_ok.2 (.inr ⟨key, _, held, fresh, rfl, rfl⟩)]
  exact ⟨_, rfl⟩

theorem InTransport.rekey_returns {action : Action} (inside : session.InTransport)
    (chosen : session.channel action = .ok channel) :
    (session.call (.rekey action)).result = .ok [] := by
  rw [Session.call,
    rekey_eq inside.usable chosen ((inside.wellFormed channel).rekey_eq _)]

/-- An event that leaves the transport phase usable is a call that returns,
or leaves no trace. -/
theorem InTransport.next_cases (inside : session.InTransport) (event : Event)
    (usable : (session.next event).failed = false) :
    (∃ call bytes, event = .call call ∧ (session.call call).result = .ok bytes ∧
      session.transfer? event = some { session, call, bytes }) ∨
    session.next event = session ∧ session.transfer? event = none := by
  cases event with
  | clear => cases usable
  | call call =>
      cases result : (session.call call).result with
      | ok bytes =>
          refine .inl ⟨call, bytes, rfl, result, ?_⟩
          rw [transfer?, if_pos inside.isComplete, result]
          rfl
      | error error =>
          right
          refine ⟨?_, by simp [transfer?, result, Except.toOption]⟩
          have answers := answers_call session call
          rw [next] at usable ⊢
          generalize session.call call = reply at answers result usable
          cases answers with
          | refused => rfl
          | failed =>
              simp only [fail, afterError] at usable ⊢
              split at usable
              next => cases usable
              next kept => rw [if_neg kept]
          | exchanged | transported | rekeyed => cases result

/-- Only the final message completes a handshake, and what it leaves is the
split of the transcript. -/
theorem Phase.completion {carried : Option Passage} {after : Session}
    (phase : session.Phase) (compiled : session.protocol.IsCompiled)
    (before : session.isComplete = false) (moves : session.Moves carried after)
    (complete : after.isComplete) :
    ∃ passage state outcome, carried = some passage ∧ session.handshake = some state ∧
      outcome.ending = some
        ((passage.entries.foldl (·.mix session.protocol.suite)
          state.symmetric.chain).ending session.protocol.suite) ∧
      after = session.advance outcome := by
  cases moves with
  | stays | cleared => cases before.symm.trans complete
  | exchanged usable exchanges =>
      obtain ⟨early, state, -, held, -⟩ := exchanges.carries compiled
      rcases exchanges.ends_or_goes_on compiled held with ⟨-, ends⟩ | ⟨-, goesOn, -⟩
      · exact ⟨_, state, _, rfl, held, ends, rfl⟩
      · have unhashed := (phase.inHandshake usable early).unhashed
        rw [isComplete, advance, goesOn] at complete
        simp [unhashed] at complete
  | transported usable late =>
      cases before.symm.trans (phase.inTransport_of_late usable late).isComplete
  | rekeyed usable chosen => cases before.symm.trans (isComplete_of_channel chosen)

/-- Transport messages take nothing in. -/
theorem InTransport.entries_of_event (inside : session.InTransport) (event : Event) :
    (session.passage? event).toList.flatMap (·.entries) = [] := by
  have ended : session.due = none := by
    rw [due, if_neg (Nat.not_le.2 inside.late)]
  cases event with
  | clear => rfl
  | call call =>
      rw [passage?]
      cases (session.call call).result with
      | error error => rfl
      | ok bytes => cases call <;> simp [Except.toOption, entriesOf, ended]

end Session

/-! ## The tally of a run -/

namespace Run

variable {protocol : Protocol} (run : Run protocol)

/-- What the split makes of all that the transcript has taken in. -/
def split : Ending :=
  (run.entries.foldl (·.mix protocol.suite) protocol.origin).ending protocol.suite

/-- The transport calls that have returned. -/
def transfers : List Transfer := run.begun.transfers run.history

/-- The run with another history. -/
def withHistory (history : List Event) : Run protocol := { run with history }

variable {run} {history : List Event} {event : Event}

theorem session_append :
    (run.withHistory (history ++ [event])).session =
      (run.withHistory history).session.next event :=
  Session.follow_append ..

theorem transfers_append :
    (run.withHistory (history ++ [event])).transfers =
      (run.withHistory history).transfers ++
        ((run.withHistory history).session.transfer? event).toList :=
  Session.transfers_append ..

theorem passages_append :
    (run.withHistory (history ++ [event])).passages =
      (run.withHistory history).passages ++
        ((run.withHistory history).session.passage? event).toList := by
  rw [passages, withHistory, Session.passages_append, Session.passages,
    Session.passages, List.append_nil]
  rfl

theorem split_append (inside : (run.withHistory history).session.InTransport) :
    (run.withHistory (history ++ [event])).split = (run.withHistory history).split := by
  have same : (run.withHistory (history ++ [event])).entries =
      (run.withHistory history).entries := by
    rw [entries, passages_append, List.flatMap_append, inside.entries_of_event,
      List.append_nil]
    rfl
  rw [split, split, same]

variable (compiled : protocol.IsCompiled)
include compiled

/-- There is no transport call before the handshake has ended. -/
theorem transfers_eq_nil
    (going : (run.withHistory history).session.isComplete = false) :
    (run.withHistory history).transfers = [] := by
  induction history using List.reverseRecOn with
  | nil => rfl
  | append_singleton history event ih =>
      have phase := (run.withHistory history).phase compiled
      have stillCompiled := isCompiled_session compiled (run.withHistory history)
      have before : (run.withHistory history).session.isComplete = false := by
        cases hashed : (run.withHistory history).session.handshakeHash with
        | none =>
            rw [Session.isComplete, hashed]
            rfl
        | some hash =>
            have stays :=
              phase.hash_of_moves stillCompiled (Session.moves_next _ event) hashed
            rw [session_append, Session.isComplete, stays] at going
            cases going
      rw [transfers_append, ih before, Session.transfer?_eq_none before]
      rfl

/-- The tally is right after every history. -/
theorem tallies (usable : (run.withHistory history).session.failed = false)
    (complete : (run.withHistory history).session.isComplete) :
    (run.withHistory history).session.Tallies (run.withHistory history).split.cipher
      (run.withHistory history).transfers := by
  induction history using List.reverseRecOn with
  | nil =>
      exact absurd complete (Session.inHandshake_of_start run.started).not_isComplete
  | append_singleton history event ih =>
      have phase := (run.withHistory history).phase compiled
      have moves := Session.moves_next (run.withHistory history).session event
      have stillCompiled := isCompiled_session compiled (run.withHistory history)
      rw [session_append] at usable complete ⊢
      have usableBefore : (run.withHistory history).session.failed = false := by
        cases failed : (run.withHistory history).session.failed with
        | false => rfl
        | true => cases usable.symm.trans (moves.failed_of_failed failed)
      rw [transfers_append]
      cases before : (run.withHistory history).session.isComplete with
      | true =>
          have inside := phase.inTransport usableBefore before
          rw [split_append inside]
          rcases inside.next_cases event usable with ⟨call, bytes, rfl, returned, found⟩
            | ⟨same, nothing⟩
          · rw [found]
            exact (ih usableBefore before).transfer inside returned
          · rw [same, nothing, Option.toList_none, List.append_nil]
            exact ih usableBefore before
      | false =>
          -- The event is the message that ends the handshake.
          obtain ⟨passage, state, outcome, carried, held, ends, after⟩ :=
            phase.completion stillCompiled before moves complete
          have chain : (run.withHistory (history ++ [event])).split =
              (passage.entries.foldl (·.mix protocol.suite)
                state.symmetric.chain).ending protocol.suite := by
            rw [split, ← chain_eq, passages_append, carried, chainOf_append,
              ((run.withHistory history).records compiled).going state held, chainOf,
              Option.toList_some, List.flatMap_singleton]
            rfl
          rw [chain, transfers_eq_nil compiled before,
            Session.transfer?_eq_none before, after]
          rw [protocol_session] at ends
          exact Session.tallies_of_advance ends

omit compiled

/-- A transport call that returns is recorded, and the transport phase goes on. -/
theorem returns {call : Session.Call} {bytes : Bytes}
    (inside : (run.withHistory history).session.InTransport)
    (returned : ((run.withHistory history).session.call call).result = .ok bytes) :
    (run.withHistory (history ++ [.call call])).session.InTransport ∧
      (run.withHistory (history ++ [.call call])).transfers =
        (run.withHistory history).transfers ++
          [⟨(run.withHistory history).session, call, bytes⟩] := by
  constructor
  · rw [session_append, Session.next]
    have moves := (inside.transfers returned).1
    generalize (Session.call _ call).session = after at moves ⊢
    cases moves with
    | message _ chosen => exact inside.moved ⟨(inside.wellFormed _).advance, rfl⟩ 1
    | rekey _ chosen =>
        exact inside.moved
          ((inside.wellFormed _).rekey ((inside.wellFormed _).rekey_eq _)) 0
  · rw [transfers_append, Session.transfer?, if_pos inside.isComplete, returned]
    rfl

variable (run)

/-- The number of transport messages that went in a direction. -/
def messages (action : Action) : Nat := run.transfers.countP (·.isMessage action)

/-- How often the key of a direction has been replaced. -/
def rekeys (action : Action) : Nat := run.transfers.countP (·.isRekey action)

/-- The transport messages that were sent. -/
def sends : List Transfer := run.transfers.filter (·.isMessage .send)

/-- Nonces are never used twice.  After any history that has completed the handshake and
left the session usable, the nonce of each direction's cipher is the number of its
transport messages that went through, and its key is the one of the split, replaced as
often as a call has asked for it.  Each text that was sent has been encrypted with a
nonce of its own, and none of them with the one that replaces a key. -/
theorem nonces_never_repeat {draft : Draft} {suite : Suite} {attacker : AttackerModel}
    {protocol : Protocol}
    (compiled : Protocol.compile draft suite attacker = .ok protocol)
    (run : Run protocol) (complete : run.session.isComplete)
    (usable : run.session.failed = false) :
    (∀ action channel, run.session.channel action = .ok channel →
      (run.session.cipher channel).nonce = run.messages action ∧
      (run.session.cipher channel).nonce ≤ 18446744073709551615 ∧
      (run.session.cipher channel).key =
        (run.split.cipher channel).key.map
          (CipherState.nextKey suite.cipher)^[run.rekeys action]) ∧
    (∀ action error, run.session.channel action = .error error →
      run.messages action = 0 ∧ run.rekeys action = 0) ∧
    (∀ transfer ∈ run.sends, ∃ generate plaintext key,
      transfer.call = .send generate plaintext ∧ transfer.cipher.key = some key ∧
      transfer.bytes = suite.cipher.encrypt key transfer.nonce [] plaintext) ∧
    (run.sends.map (·.nonce)).Nodup ∧
    ∀ nonce ∈ run.sends.map (·.nonce), nonce.length = 12 ∧
      nonce ≠ suite.cipher.nonce maxNonce := by
  obtain ⟨wellFormed, rfl, -⟩ := Protocol.isCompiled_of_compile compiled
  have tallies : run.session.Tallies run.split.cipher run.transfers :=
    run.tallies wellFormed usable complete
  have same := run.protocol_session
  have nonces := tallies.nonces
  rw [same] at nonces
  obtain ⟨distinct, unused⟩ :=
    nonces_of_range protocol.suite.cipher (tallies.bounded .send)
  rw [← nonces] at distinct unused
  refine ⟨?_, ?_, ?_, distinct, ?_⟩
  · intro action channel chosen
    have counted := tallies.nonce action channel chosen
    have replaced := tallies.key action channel chosen
    rw [same] at replaced
    refine ⟨counted, ?_, replaced⟩
    rw [counted]
    exact Int.ofNat_le.2 (tallies.bounded action)
  · intro action error refused
    have silent := tallies.silent action error refused
    refine ⟨List.countP_eq_zero.2 ?_, List.countP_eq_zero.2 ?_⟩
    · intro transfer mem
      simp [Transfer.isMessage, silent transfer mem]
    · intro transfer mem
      simp [Transfer.isRekey, silent transfer mem]
  · intro transfer mem
    obtain ⟨returned, sends⟩ := List.mem_filter.1 mem
    obtain ⟨sameProtocol, isSealed⟩ := tallies.sound transfer returned
    obtain ⟨generate, plaintext, sent⟩ := Transfer.exists_send sends
    obtain ⟨key, held, encrypted⟩ := isSealed generate plaintext sent
    rw [sameProtocol, same] at encrypted
    exact ⟨generate, plaintext, key, sent, held, encrypted⟩
  · intro nonce mem
    refine ⟨?_, fun last => unused (last ▸ mem)⟩
    obtain ⟨transfer, -, rfl⟩ := List.mem_map.1 mem
    exact CipherFunction.length_nonce _ _

open Catalog in
/-- A sender with a preshared secret sends a text, replaces its key, and
sends another text. -/
theorem nonces_never_repeat_of_psk :
    ∃ protocol, ∃ run : Run protocol, ∃ channel,
      Protocol.compile (entry "P" [] [Catalog.send [psk], Catalog.recv []]).toDraft
        {} .active = .ok protocol ∧
      run.session.isComplete ∧ run.session.failed = false ∧
      run.session.channel .send = .ok channel ∧
      (run.session.cipher channel).nonce = 2 ∧
      (run.session.cipher channel).key =
        (run.split.cipher channel).key.map (CipherState.nextKey ({} : Suite).cipher) ∧
      run.sends.length = 2 ∧ (run.sends.map (·.nonce)).Nodup := by
  obtain ⟨protocol, begun, step, state, compiled, started, going, turn, program, held,
      interactive⟩ :
      ∃ protocol begun step state,
        Protocol.compile (entry "P" [] [Catalog.send [psk], Catalog.recv []]).toDraft
          {} .active = .ok protocol ∧
        Session.start protocol .initiator [] { psk := some (List.replicate 32 5) } =
          .ok begun ∧
        begun.due = some (step, state) ∧ step.sender = begun.role ∧
        step.write = [.mixKeyAndHash .psk, .authEncrypt .payload, .split] ∧
        state.psk = some (List.replicate 32 5) ∧ protocol.isOneWay = false :=
    ⟨_, _, _, _, rfl, rfl, rfl, rfl, rfl, rfl, rfl⟩
  obtain ⟨wellFormed, -, -⟩ := Protocol.isCompiled_of_compile compiled
  let run : Run protocol :=
    { role := .initiator, prologue := [], begun, started
      keys := { psk := some (List.replicate 32 5) }
      history := [] }
  let text (plaintext : Bytes) : Session.Call := .send (fun _ => default) plaintext
  have fresh := Session.inHandshake_of_start started
  have ended : (run.withHistory [.call (text [])]).session.InTransport := by
    have fits : ([] : Bytes).length + tagLength ≤ maxMessageLength := by decide
    obtain ⟨complete, key⟩ :=
      Session.send_of_psk fresh.usable going turn program held fits
    cases (run.withHistory [.call (text [])]).phase wellFormed with
    | handshake inside => exact absurd complete inside.not_isComplete
    | transport inside => exact inside
    | abandoned gone =>
        have empty : (begun.next (.call (text []))).cipherA = {} := gone.empty .a
        rw [empty] at key
        cases key
  have silent : (run.withHistory [.call (text [])]).transfers = [] := by
    have uncompleted : begun.isComplete = false :=
      Bool.eq_false_iff.2 fresh.not_isComplete
    simp [transfers, withHistory, run, Session.transfers, Session.transfer?,
      uncompleted]
  have opened : ∀ history action, (run.withHistory history).session.InTransport →
      ∃ channel, (run.withHistory history).session.channel action = .ok channel := by
    intro history action inside
    apply Session.exists_channel inside.isComplete
    rw [protocol_session, interactive]
  have sends : ∀ history plaintext, (run.withHistory history).session.InTransport →
      (run.withHistory history).messages .send < 2 → plaintext.length < 5 →
      ∃ message, ((run.withHistory history).session.call (text plaintext)).result =
        .ok message := by
    intro history plaintext inside few short
    obtain ⟨channel, chosen⟩ := opened history .send inside
    have count :=
      (tallies wellFormed inside.usable inside.isComplete).nonce .send channel chosen
    refine inside.exists_message chosen ?_ ?_
    · have room : (2 : Int) < maxNonce := by decide
      rw [count]
      exact Int.lt_trans (Int.ofNat_lt.2 few) room
    · rw [maxMessageLength, tagLength]
      omega
  obtain ⟨first, returned⟩ :=
    sends _ [1, 2, 3] ended (by rw [messages, silent]; decide) (by decide)
  obtain ⟨inside, recorded⟩ := returns ended returned
  obtain ⟨channel, chosen⟩ := opened _ .send inside
  obtain ⟨inside', recorded'⟩ := returns inside (inside.rekey_returns chosen)
  rw [recorded, silent] at recorded'
  obtain ⟨second, returned'⟩ := sends _ [4] inside'
    (by rw [messages, recorded']; exact Nat.one_lt_two) (by decide)
  obtain ⟨last, recorded''⟩ := returns inside' returned'
  rw [recorded'] at recorded''
  obtain ⟨channel, chosen⟩ := opened _ .send last
  obtain ⟨ciphers, -, -, distinct, -⟩ :=
    nonces_never_repeat compiled _ last.isComplete last.usable
  obtain ⟨nonce, -, key⟩ := ciphers .send channel chosen
  rw [messages, recorded''] at nonce
  rw [rekeys, recorded''] at key
  refine ⟨protocol, _, channel, compiled, last.isComplete, last.usable, chosen, nonce,
    key, ?_, distinct⟩
  rw [Run.sends, recorded'']
  rfl

end Run

end Noise
