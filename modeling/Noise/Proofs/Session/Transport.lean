import Mathlib.Logic.Function.Basic
import Mathlib.Logic.Relation
import Noise.Proofs.Handshake.WellFormed
import Noise.Proofs.Session.Agreement

/-!
# Transport messages arrive in order

After the handshake each direction is a queue of messages and of marks where the sender
has replaced its key.  Draining the queue with the receiver's cipher leads to the
sender's cipher: this one invariant holds however the calls of the two parties
interleave, and it makes every message arrive, in order.
-/

namespace Noise

/-- What is on its way to a party. -/
inductive Packet where
  | message (bytes : Bytes)
  /-- The sender has replaced its key. -/
  | rekey
deriving DecidableEq, Repr

/-- A cipher takes some packets in, gets texts out of them, and ends as
another cipher. -/
inductive CipherState.Drains (cipher : CipherFunction) :
    CipherState → List Packet → List Bytes → CipherState → Prop where
  | done (state : CipherState) : Drains cipher state [] [] state
  | message {state next last : CipherState} {bytes text : Bytes} {rest : List Packet}
      {texts : List Bytes} :
      state.decrypt cipher [] bytes = .ok (text, next) →
      Drains cipher next rest texts last →
      Drains cipher state (.message bytes :: rest) (text :: texts) last
  | rekey {state next last : CipherState} {rest : List Packet} {texts : List Bytes} :
      state.rekey cipher = .ok next → Drains cipher next rest texts last →
      Drains cipher state (.rekey :: rest) texts last

/-- Packets in sequence are taken in in sequence. -/
theorem CipherState.Drains.append {cipher : CipherFunction}
    {state next last : CipherState} {packets others : List Packet}
    {texts otherTexts : List Bytes} (first : Drains cipher state packets texts next)
    (second : Drains cipher next others otherTexts last) :
    Drains cipher state (packets ++ others) (texts ++ otherTexts) last := by
  induction first with
  | done => exact second
  | message decrypted _ ih => exact .message decrypted (ih second)
  | rekey replaced _ ih => exact .rekey replaced (ih second)

theorem CipherState.Drains.of_nil {cipher : CipherFunction} {state last : CipherState}
    {texts : List Bytes} (drains : Drains cipher state [] texts last) :
    texts = [] ∧ last = state := by
  cases drains with
  | done => exact ⟨rfl, rfl⟩

/-- The channel that a role sends on, if it may send at all. -/
def Protocol.sendingChannel (protocol : Protocol) (role : Role) : Option Channel :=
  if protocol.isOneWay then
    if protocol.oneWaySender = some role then some .a else none
  else if role = .initiator then some .a
  else some .b

/-- The two roles never send on the same channel. -/
theorem Protocol.sendingChannel_ne {protocol : Protocol} {role : Role}
    {channel : Channel} (sends : protocol.sendingChannel role = some channel) :
    protocol.sendingChannel role.other ≠ some channel := by
  intro alsoSends
  simp only [sendingChannel] at sends alsoSends
  cases role <;> grind [Role.other]

/-- In an interactive pattern both roles send, in a one-way pattern only one
of them does. -/
theorem Protocol.sendingChannel_eq_none {protocol : Protocol} {role : Role} :
    protocol.sendingChannel role = none ↔
      protocol.isOneWay ∧ protocol.oneWaySender ≠ some role := by
  grind [sendingChannel]

namespace Session

variable {session : Session} {channel : Channel}

theorem channel_send_eq_ok (complete : session.isComplete) :
    session.channel .send = .ok channel ↔
      session.protocol.sendingChannel session.role = some channel := by
  simp only [Session.channel, complete, Protocol.sendingChannel]
  cases session.role <;> grind

/-- A party receives on the channel on which the other sends. -/
theorem channel_receive_eq_ok (complete : session.isComplete)
    (sends : session.protocol.sendingChannel session.role.other = some channel) :
    session.channel .receive = .ok channel := by
  simp only [Protocol.sendingChannel] at sends
  simp only [Session.channel, complete]
  cases role : session.role <;> grind [Role.other]

/-- The session with another cipher on a channel, some messages later. -/
def moved (session : Session) (channel : Channel) (cipher : CipherState) (count : Nat) :
    Session :=
  { session.withCipher channel cipher with counter := session.counter + count }

@[simp] theorem cipher_moved_self (cipher : CipherState) (count : Nat) :
    (session.moved channel cipher count).cipher channel = cipher := by
  cases channel <;> rfl

theorem cipher_moved_of_ne {other : Channel} (different : other ≠ channel)
    (cipher : CipherState) (count : Nat) :
    (session.moved channel cipher count).cipher other = session.cipher other := by
  cases channel <;> cases other <;> simp_all [moved, withCipher, Session.cipher]

theorem moved_zero (cipher : CipherState) :
    session.moved channel cipher 0 = session.withCipher channel cipher := by
  cases channel <;> rfl

/-- A session of a role that has completed the handshake of a protocol: it has the hash,
and it has counted the final message. -/
structure Established (protocol : Protocol) (role : Role) (session : Session) :
    Prop where
  protocol_eq : session.protocol = protocol
  role_eq : session.role = role
  usable : session.failed = false
  complete : session.isComplete
  late : protocol.finalIndex < session.counter

theorem Established.moved {protocol : Protocol} {role : Role}
    (established : Established protocol role session) (cipher : CipherState)
    (count : Nat) : Established protocol role (session.moved channel cipher count) := by
  obtain ⟨sameProtocol, sameRole, usable, complete, late⟩ := established
  have later : protocol.finalIndex < session.counter + count := by omega
  cases channel <;> exact ⟨sameProtocol, sameRole, usable, complete, later⟩

/-- Under a new key a text that is short enough is sent. -/
theorem Established.exists_message {protocol : Protocol} {role : Role}
    {key plaintext : Bytes} (established : Established protocol role session)
    (chosen : session.channel .send = .ok channel)
    (fresh : session.cipher channel = .ofKey (some key))
    (length : key.length = keyLength)
    (fits : plaintext.length + tagLength ≤ maxMessageLength) (generate : KeyGenerator) :
    ∃ message, session.send generate plaintext =
      { session := session.moved channel { key := some key, nonce := 1 } 1
        result := .ok message } := by
  have late : session.protocol.finalIndex < session.counter := by
    rw [established.protocol_eq]
    exact established.late
  obtain ⟨message, encrypted, -⟩ :=
    CipherState.encrypt_ofKey session.protocol.suite.cipher length [] plaintext
  refine ⟨message, ?_⟩
  rw [send_transport established.usable late chosen fits, fresh, encrypted]
  rfl

end Session

/-- Two parties and what is on its way between them. -/
structure Network where
  party : Role → Session
  /-- The packets on their way from a role to the other. -/
  wire : Role → List Packet := fun _ => []
  /-- The texts that a role has sent. -/
  sent : Role → List Bytes := fun _ => []
  /-- The texts that have been received from a role. -/
  received : Role → List Bytes := fun _ => []

namespace Network

open Function (update)

/-- What can happen next: a party sends or replaces its key, the other party takes the
first packet off the wire, or, under a passive attacker, a party rejects a message that
came from elsewhere. -/
inductive Step (network : Network) : Network → Prop where
  | send (role : Role) (generate : KeyGenerator) (plaintext : Bytes) {message : Bytes} :
      ((network.party role).send generate plaintext).result = .ok message →
      Step network
        { network with
          party :=
            update network.party role
              ((network.party role).send generate plaintext).session
          wire := update network.wire role (network.wire role ++ [.message message])
          sent := update network.sent role (network.sent role ++ [plaintext]) }
  | rekeySend (role : Role) {next : Session} :
      (network.party role).rekey .send = .ok next →
      Step network
        { network with
          party := update network.party role next
          wire := update network.wire role (network.wire role ++ [.rekey]) }
  | receive (role : Role) (generate : KeyGenerator) {message text : Bytes}
      {rest : List Packet} :
      network.wire role = .message message :: rest →
      ((network.party role.other).recv generate message).result = .ok text →
      Step network
        { network with
          party :=
            update network.party role.other
              ((network.party role.other).recv generate message).session
          wire := update network.wire role rest
          received := update network.received role (network.received role ++ [text]) }
  | rekeyReceive (role : Role) {next : Session} {rest : List Packet} :
      network.wire role = .rekey :: rest →
      (network.party role.other).rekey .receive = .ok next →
      Step network
        { network with
          party := update network.party role.other next
          wire := update network.wire role rest }
  | reject (role : Role) (generate : KeyGenerator) (message : Bytes)
      {error : ProtocolError} :
      (network.party role).protocol.attacker = .passive →
      ((network.party role).recv generate message).result = .error error →
      Step network
        { network with
          party :=
            update network.party role
              ((network.party role).recv generate message).session }

/-- What holds however the calls interleave.  In each direction the receiver's cipher
gets the texts that have not been received out of the packets on the wire, and ends as
the sender's cipher. -/
structure Sound (protocol : Protocol) (network : Network) : Prop where
  established : ∀ role, Session.Established protocol role (network.party role)
  flows : ∀ role channel, protocol.sendingChannel role = some channel →
    ∃ pending,
      CipherState.Drains protocol.suite.cipher
        ((network.party role.other).cipher channel)
        (network.wire role) pending ((network.party role).cipher channel) ∧
      network.sent role = network.received role ++ pending
  fits : ∀ role bytes, .message bytes ∈ network.wire role →
    bytes.length ≤ maxMessageLength
  silent : ∀ role, protocol.sendingChannel role = none →
    network.wire role = [] ∧ network.sent role = [] ∧ network.received role = []

variable {protocol : Protocol} {network next : Network} {role mover : Role}
  {channel : Channel}

/-- The cipher of a party that moves changes on one channel only. -/
theorem cipher_of_move {cipher : CipherState} {count : Nat}
    (moves : next.party =
      update network.party mover ((network.party mover).moved channel cipher count))
    {other : Channel} (different : other ≠ channel) (role : Role) :
    (next.party role).cipher other = (network.party role).cipher other := by
  rw [moves]
  by_cases isMover : role = mover
  · subst isMover
    rw [Function.update_self, Session.cipher_moved_of_ne different]
  · rw [Function.update_of_ne isMover]

theorem established_of_move {cipher : CipherState} {count : Nat}
    (moves : next.party =
      update network.party mover ((network.party mover).moved channel cipher count))
    (established : ∀ role, Session.Established protocol role (network.party role))
    (role : Role) :
    Session.Established protocol role (next.party role) := by
  rw [moves]
  by_cases isMover : role = mover
  · subst isMover
    rw [Function.update_self]
    exact (established role).moved cipher count
  · rw [Function.update_of_ne isMover]
    exact established role

/-- A change of one direction leaves the other as it is, because the two use
different channels. -/
theorem Sound.of_move {cipher : CipherState} {count : Nat}
    (sound : Sound protocol network)
    (sends : protocol.sendingChannel role = some channel)
    (moves : next.party =
      update network.party mover ((network.party mover).moved channel cipher count))
        (sameWire : next.wire role.other = network.wire role.other)
    (sameSent : next.sent role.other = network.sent role.other)
    (sameReceived : next.received role.other = network.received role.other)
    (flow : ∃ pending,
      CipherState.Drains protocol.suite.cipher ((next.party role.other).cipher channel)
        (next.wire role) pending ((next.party role).cipher channel) ∧
      next.sent role = next.received role ++ pending)
    (fits : ∀ bytes, .message bytes ∈ next.wire role →
      bytes.length ≤ maxMessageLength) :
    Sound protocol next where
  established := established_of_move moves sound.established
  flows := by
    intro party other sendsOther
    rcases party.eq_or_eq_other role with rfl | rfl
    · obtain rfl := Option.some.inj (sends.symm.trans sendsOther)
      exact flow
    · have different : other ≠ channel := by
        rintro rfl
        exact Protocol.sendingChannel_ne sends sendsOther
      rw [cipher_of_move moves different, cipher_of_move moves different, sameWire,
        sameSent, sameReceived]
      exact sound.flows _ other sendsOther
  fits := by
    intro party
    rcases party.eq_or_eq_other role with rfl | rfl
    · exact fits
    · rw [sameWire]
      exact sound.fits _
  silent := by
    intro party quiet
    rcases party.eq_or_eq_other role with rfl | rfl
    · rw [quiet] at sends
      cases sends
    · rw [sameWire, sameSent, sameReceived]
      exact sound.silent _ quiet

theorem Sound.channel_send (sound : Sound protocol network) :
    (network.party role).channel .send = .ok channel ↔
      protocol.sendingChannel role = some channel := by
  have established := sound.established role
  rw [Session.channel_send_eq_ok established.complete, established.protocol_eq,
    established.role_eq]

theorem Sound.channel_receive (sound : Sound protocol network)
    (sends : protocol.sendingChannel role = some channel) :
    (network.party role.other).channel .receive = .ok channel := by
  have established := sound.established role.other
  apply Session.channel_receive_eq_ok established.complete
  rw [established.protocol_eq, established.role_eq, Role.other_other]
  exact sends

/-- There is something on the wire only if the role may send. -/
theorem Sound.exists_channel {packet : Packet} {rest : List Packet}
    (sound : Sound protocol network) (queued : network.wire role = packet :: rest) :
    ∃ channel, protocol.sendingChannel role = some channel := by
  cases sends : protocol.sendingChannel role with
  | none =>
      rw [(sound.silent role sends).1] at queued
      cases queued
  | some channel => exact ⟨channel, rfl⟩

/-- The first packet, if it is a message, gives the next text that was sent. -/
theorem Sound.recv_head {message : Bytes} {rest : List Packet}
    (sound : Sound protocol network) (generate : KeyGenerator)
    (queued : network.wire role = .message message :: rest) :
    ∃ channel text cipher pending,
      protocol.sendingChannel role = some channel ∧
      (network.party role.other).recv generate message =
        { session := (network.party role.other).moved channel cipher 1,
          result := .ok text } ∧
      CipherState.Drains protocol.suite.cipher cipher rest pending
        ((network.party role).cipher channel) ∧
      network.sent role = network.received role ++ (text :: pending) := by
  obtain ⟨channel, sends⟩ := sound.exists_channel queued
  obtain ⟨pending, drains, ordered⟩ := sound.flows role channel sends
  have established := sound.established role.other
  have fits := sound.fits role message (by simp [queued])
  rw [queued] at drains
  cases drains with
  | @message _ cipher _ _ text _ pending decrypted drains =>
      refine ⟨channel, text, cipher, pending, sends, ?_, drains, ordered⟩
      rw [Session.recv_transport established.usable fits
        (by rw [established.protocol_eq]; exact established.late)
        (sound.channel_receive sends), established.protocol_eq, decrypted]
      rfl

/-- The first packet, if it is a mark, has the receiver replace its key as
the sender did. -/
theorem Sound.rekey_head {rest : List Packet} (sound : Sound protocol network)
    (queued : network.wire role = .rekey :: rest) :
    ∃ channel cipher pending,
      protocol.sendingChannel role = some channel ∧
      (network.party role.other).rekey .receive =
        .ok ((network.party role.other).moved channel cipher 0) ∧
      CipherState.Drains protocol.suite.cipher cipher rest pending
        ((network.party role).cipher channel) ∧
      network.sent role = network.received role ++ pending := by
  obtain ⟨channel, sends⟩ := sound.exists_channel queued
  obtain ⟨pending, drains, ordered⟩ := sound.flows role channel sends
  have established := sound.established role.other
  rw [queued] at drains
  cases drains with
  | @rekey _ cipher _ _ _ replaced drains =>
      refine ⟨channel, cipher, pending, sends, ?_, drains, ordered⟩
      rw [Session.rekey_eq established.usable (sound.channel_receive sends)
        (by rw [established.protocol_eq]; exact replaced), Session.moved_zero]

/-- What a party does with its own cipher goes to the end of its wire. -/
theorem Sound.of_append {cipher : CipherState} {count : Nat} {packet : Packet}
    {texts : List Bytes} (sound : Sound protocol network)
    (sends : protocol.sendingChannel role = some channel)
    (taken : CipherState.Drains protocol.suite.cipher
      ((network.party role).cipher channel) [packet] texts cipher)
    (fits : ∀ bytes, packet = .message bytes → bytes.length ≤ maxMessageLength)
    (moves : next.party =
      update network.party role ((network.party role).moved channel cipher count))
    (wired : next.wire = update network.wire role (network.wire role ++ [packet]))
    (sent : next.sent = update network.sent role (network.sent role ++ texts))
    (received : next.received = network.received) : Sound protocol next := by
  obtain ⟨pending, drains, ordered⟩ := sound.flows role channel sends
  have distinct := role.other_ne
  refine sound.of_move sends moves ?_ ?_ ?_ ⟨pending ++ texts, ?_, ?_⟩ ?_
  · rw [wired, Function.update_of_ne distinct]
  · rw [sent, Function.update_of_ne distinct]
  · rw [received]
  · rw [moves, wired, Function.update_of_ne distinct, Function.update_self,
      Function.update_self, Session.cipher_moved_self]
    exact drains.append taken
  · rw [sent, received, Function.update_self, ordered, List.append_assoc]
  · intro bytes queued
    rw [wired, Function.update_self, List.mem_append, List.mem_singleton] at queued
    exact queued.elim (sound.fits role bytes) fun isPacket => fits bytes isPacket.symm

/-- What the other party does with its cipher comes off the front of the wire. -/
theorem Sound.of_take {cipher : CipherState} {count : Nat} {packet : Packet}
    {rest : List Packet} {texts pending : List Bytes} (sound : Sound protocol network)
    (queued : network.wire role = packet :: rest)
    (sends : protocol.sendingChannel role = some channel)
    (drains : CipherState.Drains protocol.suite.cipher cipher rest pending
      ((network.party role).cipher channel))
    (ordered : network.sent role = network.received role ++ (texts ++ pending))
    (moves : next.party =
      update network.party role.other
        ((network.party role.other).moved channel cipher count))
    (wired : next.wire = update network.wire role rest)
    (sent : next.sent = network.sent)
    (received : next.received =
      update network.received role (network.received role ++ texts)) :
    Sound protocol next := by
  have distinct := role.other_ne
  refine sound.of_move sends moves ?_ ?_ ?_ ⟨pending, ?_, ?_⟩ ?_
  · rw [wired, Function.update_of_ne distinct]
  · rw [sent]
  · rw [received, Function.update_of_ne distinct]
  · rw [moves, wired, Function.update_self, Function.update_self,
      Function.update_of_ne distinct.symm, Session.cipher_moved_self]
    exact drains
  · rw [sent, received, Function.update_self, ordered, List.append_assoc]
  · intro bytes queuedBehind
    rw [wired, Function.update_self] at queuedBehind
    exact sound.fits role bytes (by rw [queued]; exact .tail _ queuedBehind)

/-- Every step keeps the directions in order. -/
theorem Step.sound (step : Step network next) (sound : Sound protocol network) :
    Sound protocol next := by
  cases step with
  | @send role generate plaintext message sent =>
      have established := sound.established role
      obtain ⟨-, channel, cipher, chosen, short, encrypted, after⟩ :=
        Session.of_send_transport sent
          (by rw [established.protocol_eq]; exact established.late)
      rw [established.protocol_eq] at encrypted
      rw [after]
      -- The receiver refuses long messages before it decrypts, so a sent one must not
      -- be long.
      have fits : message.length ≤ maxMessageLength := by
        have length := CipherState.length_of_encrypt encrypted
        grind
      exact sound.of_append (sound.channel_send.1 chosen)
        (.message (CipherState.decrypt_of_encrypt encrypted) (.done _))
        (by rintro bytes ⟨⟩; exact fits)
        rfl rfl rfl rfl
  | @rekeySend role next rekeyed =>
      obtain ⟨-, channel, cipher, chosen, replaced, rfl⟩ := Session.of_rekey rekeyed
      rw [(sound.established role).protocol_eq] at replaced
      rw [← Session.moved_zero]
      exact sound.of_append (sound.channel_send.1 chosen) (.rekey replaced (.done _))
        (by rintro bytes ⟨⟩)
        rfl rfl (by simp) rfl
  | @receive role generate message text rest queued received =>
      obtain ⟨channel, decrypted, cipher, pending, sends, taken, drains, ordered⟩ :=
        sound.recv_head generate queued
      rw [taken] at received ⊢
      obtain rfl := Except.ok.inj received
      exact sound.of_take queued sends drains ordered rfl rfl rfl rfl
  | @rekeyReceive role next rest queued rekeyed =>
      obtain ⟨channel, cipher, pending, sends, taken, drains, ordered⟩ :=
        sound.rekey_head queued
      obtain rfl := Except.ok.inj (rekeyed.symm.trans taken)
      exact sound.of_take queued sends drains
        (ordered.trans (by rw [List.nil_append])) rfl rfl rfl (by simp)
  | @reject role generate message error passive rejected =>
      -- A forged message neither moves the cipher nor takes a packet.
      have same : ((network.party role).call (.recv generate message)).session =
          network.party role :=
        Session.session_call_of_error passive rejected
      rw [Session.call] at same
      rw [same, Function.update_eq_self]
      exact sound

/-- The directions stay in order through any number of steps. -/
theorem Sound.of_run (reached : Relation.ReflTransGen Step network next)
    (sound : Sound protocol network) :
    Sound protocol next := by
  induction reached with
  | refl => exact sound
  | tail _ step ih => exact step.sound ih

/-- Two sessions that have completed the same handshake and hold the same
transport ciphers. -/
structure Connected (protocol : Protocol) (party : Role → Session) : Prop where
  established : ∀ role, Session.Established protocol role (party role)
  sameCipher : ∀ channel,
    (party .initiator).cipher channel = (party .responder).cipher channel

variable {party : Role → Session}

theorem Connected.sound (connected : Connected protocol party) :
    Sound protocol { party } where
  established := connected.established
  flows := by
    intro role channel _
    have sameCipher :
        (party role.other).cipher channel = (party role).cipher channel := by
      cases role with
      | initiator => exact (connected.sameCipher channel).symm
      | responder => exact connected.sameCipher channel
    refine ⟨[], ?_, rfl⟩
    rw [sameCipher]
    exact .done _
  fits := by
    intro role bytes queued
    cases queued
  silent := fun _ _ => ⟨rfl, rfl, rfl⟩

/-- Parties that have gone through a whole handshake together are connected. -/
theorem Connected.of_facing {keys : Role → Keys}
    (facing : Session.Facing protocol keys (party .initiator) (party .responder))
    (isInitiator : (party .initiator).role = .initiator)
    (late : protocol.finalIndex < (party .initiator).counter) :
    Connected protocol party := by
  obtain ⟨complete, -, sameA, sameB, -, -⟩ := facing.hasEnded late
  refine ⟨?_, ?_⟩
  · intro role
    cases role with
    | initiator =>
        exact ⟨facing.protocol_eq, isInitiator, facing.usable, complete, late⟩
    | responder =>
        have peerLate : protocol.finalIndex < (party .responder).counter := by
          rwa [← facing.counter_eq]
        obtain ⟨peerComplete, -⟩ := facing.symm.hasEnded peerLate
        refine ⟨facing.peerProtocol_eq, ?_, facing.peerUsable, peerComplete, peerLate⟩
        rw [facing.role_eq, isInitiator]
        rfl
  · intro channel
    cases channel with
    | a => exact sameA
    | b => exact sameB

/-- What was received is the beginning of what was sent. -/
theorem Sound.received_le_sent (sound : Sound protocol network) :
    network.received role <+: network.sent role := by
  cases sends : protocol.sendingChannel role with
  | none =>
      obtain ⟨-, nothingSent, nothingReceived⟩ := sound.silent role sends
      rw [nothingSent, nothingReceived]
  | some channel =>
      obtain ⟨pending, -, ordered⟩ := sound.flows role channel sends
      exact ⟨pending, ordered.symm⟩

/-- With nothing on its way, the two ends of a direction agree. -/
theorem Sound.eq_of_wire_eq_nil (sound : Sound protocol network)
    (sends : protocol.sendingChannel role = some channel)
    (empty : network.wire role = []) :
    (network.party role).cipher channel = (network.party role.other).cipher channel ∧
      network.received role = network.sent role := by
  obtain ⟨pending, drains, ordered⟩ := sound.flows role channel sends
  rw [empty] at drains
  obtain ⟨rfl, sameCipher⟩ := drains.of_nil
  rw [List.append_nil] at ordered
  exact ⟨sameCipher, ordered.symm⟩

/-- Transport messages arrive in order.  However the two parties interleave what they
send, the keys that they replace and the forged messages that they reject, the next
packet of each direction is taken without an error, and what was received is the
beginning of what was sent.  When nothing is on its way, the sender and the receiver
hold the same cipher.  In an interactive pattern this holds of both directions; in a
one-way pattern the direction of the role that does not send stays empty. -/
theorem transport_in_order {protocol : Protocol} {party : Role → Session}
    {network : Network} (connected : Connected protocol party)
    (reached : Relation.ReflTransGen Step { party } network) (role : Role) :
    (∀ message rest, network.wire role = .message message :: rest → ∀ generate,
      ∃ text, ((network.party role.other).recv generate message).result = .ok text ∧
        network.received role ++ [text] <+: network.sent role) ∧
    (∀ rest, network.wire role = .rekey :: rest →
      ∃ next, (network.party role.other).rekey .receive = .ok next) ∧
    network.received role <+: network.sent role ∧
    ((protocol.isOneWay → protocol.oneWaySender = some role) →
      ∃ channel, (network.party role).channel .send = .ok channel ∧
        (network.party role.other).channel .receive = .ok channel ∧
        (network.wire role = [] →
          (network.party role).cipher channel =
            (network.party role.other).cipher channel ∧
          network.received role = network.sent role)) ∧
    (protocol.isOneWay → protocol.oneWaySender ≠ some role →
      network.wire role = [] ∧ network.sent role = [] ∧
      network.received role = []) := by
  have sound := connected.sound.of_run reached
  refine ⟨?_, ?_, sound.received_le_sent, ?_, ?_⟩
  · intro message rest queued generate
    obtain ⟨channel, text, cipher, pending, -, taken, -, ordered⟩ :=
      sound.recv_head generate queued
    refine ⟨text, by rw [taken], pending, ?_⟩
    rw [ordered, List.append_assoc, List.singleton_append]
  · intro rest queued
    obtain ⟨channel, cipher, pending, -, taken, -, -⟩ := sound.rekey_head queued
    exact ⟨_, taken⟩
  · intro isSender
    obtain ⟨channel, sends⟩ := Option.ne_none_iff_exists'.1 fun none =>
      have ⟨oneWay, notSender⟩ := Protocol.sendingChannel_eq_none.1 none
      notSender (isSender oneWay)
    exact ⟨channel, sound.channel_send.2 sends, sound.channel_receive sends,
      sound.eq_of_wire_eq_nil sends⟩
  · intro oneWay notSender
    exact sound.silent role (Protocol.sendingChannel_eq_none.2 ⟨oneWay, notSender⟩)

/-- The parties of the two roles. -/
def between (initiator responder : Session) : Role → Session
  | .initiator => initiator
  | .responder => responder

/-- Keys of a party that shares a secret with the other. -/
def sharedKeys : Keys := { Session.twinKeys with psk := some (List.replicate 32 5) }

open Catalog in
/-- Two sessions go through a handshake of one message, and have new keys on
both channels. -/
theorem exists_connected_of_psk :
    ∃ protocol own peer,
      Protocol.compile (entry "P" [] [Catalog.send [psk], Catalog.recv []]).toDraft
        {} .passive = .ok protocol ∧
      protocol.isOneWay = false ∧
      Session.Together protocol [] (fun _ => sharedKeys) own peer ∧
      Connected protocol (between own peer) ∧
      ∀ channel, ∃ key, key.length = keyLength ∧
        own.cipher channel = .ofKey (some key) := by
  obtain ⟨protocol, begun, begunPeer, step, state, compiled, final, interactive,
      started, peerStarted, usable, sameProtocol, first, found, going, turn, program,
      held, isInitiator⟩ :
    ∃ protocol begun begunPeer step state,
      Protocol.compile (entry "P" [] [Catalog.send [psk], Catalog.recv []]).toDraft
        {} .passive = .ok protocol ∧
      protocol.finalIndex = 0 ∧ protocol.isOneWay = false ∧
      Session.start protocol .initiator [] sharedKeys = .ok begun ∧
      Session.start protocol .responder [] sharedKeys = .ok begunPeer ∧
      begun.failed = false ∧ begun.protocol = protocol ∧ begun.counter = 0 ∧
      begun.protocol.steps[begun.counter]? = some step ∧ begun.handshake = some state ∧
      step.sender = begun.role ∧
      step.write = [.mixKeyAndHash .psk, .authEncrypt .payload, .split] ∧
      state.psk = some (List.replicate 32 5) ∧ begun.role = .initiator :=
    ⟨_, _, _, _, _, rfl, rfl, rfl, rfl, rfl, rfl, rfl, rfl, rfl, rfl, rfl, rfl,
      rfl, rfl⟩
  obtain ⟨wellFormed, -, passive⟩ := Protocol.isCompiled_of_compile compiled
  have introduced : Introduced fun _ => sharedKeys :=
    ⟨fun _ => rfl, fun _ => rfl, fun _ _ held => held⟩
  have facing := Session.Facing.start wellFormed introduced started peerStarted
  have early : begun.counter ≤ protocol.finalIndex := by omega
  obtain ⟨outcome, chain, wrote, length, ends, -⟩ := HandshakeState.write_of_psk held []
  let generate : KeyGenerator := fun _ => default
  have sends : begun.send generate [] =
      { session := begun.advance outcome, result := .ok outcome.message
        drewKey := outcome.drewKey } := by
    rw [Session.send_handshake usable (by omega) found going turn, program, wrote]
    simp [Session.commit, length, maxMessageLength, tagLength]
  have sent : (begun.send generate []).result = .ok outcome.message := by rw [sends]
  rcases facing.exchange wellFormed passive early sent generate with
    ⟨received, facing⟩ | ⟨-, missing⟩
  · have together : Session.Together protocol [] (fun _ => sharedKeys) _ _ :=
      .exchange generate generate []
        (.start .initiator started peerStarted) early sent received
    rw [sends] at facing together
    refine ⟨protocol, begun.advance outcome, _, compiled, interactive, together, ?_, ?_⟩
    · refine .of_facing facing ?_ ?_
      · simp [between, Session.advance, ends, isInitiator]
      · simp [between, Session.advance, ends, final]
    · intro channel
      simp only [Session.advance, ends, sameProtocol, interactive]
      cases channel with
      | a => exact ⟨_, SymmetricState.length_take_hkdf .., rfl⟩
      | b => exact ⟨_, SymmetricState.length_take_hkdf .., rfl⟩
  · cases missing

open Catalog in
/-- Two sessions go through a handshake.  Then a message arrives although its sender has
replaced its key since and the receiver has sent one too. -/
theorem transport_in_order_of_psk :
    ∃ protocol own peer network message other,
      Protocol.compile (entry "P" [] [Catalog.send [psk], Catalog.recv []]).toDraft
        {} .passive = .ok protocol ∧
      Session.Together protocol [] (fun _ => sharedKeys) own peer ∧
      Connected protocol (between own peer) ∧
      Relation.ReflTransGen Step { party := between own peer } network ∧
      network.wire .initiator = [.message message, .rekey] ∧
      network.wire .responder = [.message other] ∧
      ((network.party .responder).recv (fun _ => default) message).result =
        .ok [1, 2, 3] := by
  obtain ⟨protocol, own, peer, compiled, interactive, together, connected, fresh⟩ :=
    exists_connected_of_psk
  let generate : KeyGenerator := fun _ => default
  obtain ⟨key, length, first⟩ := fresh .a
  obtain ⟨otherKey, otherLength, second⟩ := fresh .b
  have peerSecond : peer.cipher .b = .ofKey (some otherKey) := by
    rw [← second]
    exact (connected.sameCipher .b).symm
  have sending : ∀ role channel, protocol.sendingChannel role = some channel →
      (between own peer role).channel .send = .ok channel :=
    fun _ _ sends => connected.sound.channel_send.2 sends
  have onFirst : protocol.sendingChannel .initiator = some .a := by
    simp [Protocol.sendingChannel, interactive]
  have chosen := sending .initiator .a onFirst
  have peerChosen :=
    sending .responder .b (by simp [Protocol.sendingChannel, interactive])
  have short : ([1, 2, 3] : Bytes).length + tagLength ≤ maxMessageLength := by decide
  have alsoShort : ([4] : Bytes).length + tagLength ≤ maxMessageLength := by decide
  obtain ⟨message, sends⟩ :=
    (connected.established .initiator).exists_message chosen first length short generate
  obtain ⟨other, peerSends⟩ :=
    (connected.established .responder).exists_message peerChosen
      peerSecond otherLength alsoShort generate
  have sent : Step { party := between own peer } _ :=
    .send .initiator generate [1, 2, 3] (congrArg Reply.result sends)
  have sound := sent.sound connected.sound
  have wellFormed :
      (((between own peer .initiator).send generate [1, 2, 3]).session.cipher
        .a).WellFormed := by
    rw [sends, Session.cipher_moved_self]
    exact (CipherState.wellFormed_ofKey length).advance
  have rekeyed := (Relation.ReflTransGen.single sent).tail
    (.rekeySend .initiator (Session.rekey_eq (sound.established .initiator).usable
      (sound.channel_send.2 onFirst) (wellFormed.rekey_eq _)))
  have reached := rekeyed.tail
    (.send .responder generate [4] (congrArg Reply.result peerSends))
  refine ⟨protocol, own, peer, _, message, other, compiled, together, connected,
    reached, rfl, rfl, ?_⟩
  obtain ⟨text, received, ordered⟩ :=
    (transport_in_order connected reached .initiator).1 message [.rekey] rfl generate
  obtain rfl : text = [1, 2, 3] := by simpa using ordered
  exact received

end Network

end Noise
