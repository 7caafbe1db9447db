import Noise.Proofs.Handshake.Binding
import Noise.Proofs.Session.Phases

/-!
# What the results of a handshake bind

A run keeps the record of its messages.  The hash of a completed handshake is the hash
of what the record says, and the first transport key is derived from the secrets in it.
Two runs of a protocol record entries of the same kinds, whatever their roles, keys and
histories.  Therefore runs with the same hash agree on all that was hashed, and runs
with the same first key agree on all secrets, or there is a collision.
-/

namespace Noise

/-- The transcript before anything is taken in. -/
def Protocol.origin (protocol : Protocol) : Chain :=
  (SymmetricState.start protocol.suite (Text.toBytes protocol.fullName)).chain

theorem Protocol.length_origin (protocol : Protocol) :
    protocol.origin.h.length = protocol.suite.hash.length := by
  rw [origin, SymmetricState.chain, (SymmetricState.wellFormed_start ..).length_h]

/-- The messages of the handshake. -/
def Protocol.handshakeMessages (protocol : Protocol) : List Message :=
  protocol.pattern.messages.take (protocol.finalIndex + 1)

/-! ## The record of a session -/

/-- The place of a message says what it takes in: after the handshake nothing, and
before it what its tokens call for, and then what is hashed is what is on the wire. -/
inductive Passage.Fits (protocol : Protocol) (passage : Passage) (index : Nat) :
    Prop where
  | transport : protocol.finalIndex < index → passage.entries = [] →
      Fits protocol passage index
  | handshake {message : Message} :
      index ≤ protocol.finalIndex → protocol.pattern.messages[index]? = some message →
      passage.entries.map (·.mixing) = mixingsOf protocol.hasPsk message.tokens →
      Entry.wire passage.entries = passage.wire → Fits protocol passage index

/-- The transcript that an opening and some messages make. -/
def chainOf (suite : Suite) (opening : Chain) (passages : List Passage) : Chain :=
  (passages.flatMap (·.entries)).foldl (·.mix suite) opening

theorem chainOf_append (suite : Suite) (opening : Chain)
    (passages others : List Passage) :
    chainOf suite opening (passages ++ others) =
      chainOf suite (chainOf suite opening passages) others := by
  simp only [chainOf, List.flatMap_append, List.foldl_append]

/-- The state of a session is what its record says. -/
structure Records (protocol : Protocol) (opening : Chain) (session : Session)
    (passages : List Passage) (completed : Option Session) : Prop where
  protocol_eq : session.protocol = protocol
  counter : session.counter = passages.length
  fits : ∀ (index : Nat) (passage : Passage), passages[index]? = some passage →
  passage.Fits protocol index
  going : ∀ state ∈ session.handshake,
    state.symmetric.chain = chainOf protocol.suite opening passages
  uncompleted : session.handshakeHash = none → completed = none
  ended : ∀ hash ∈ session.handshakeHash,
    protocol.finalIndex < passages.length ∧
    hash = (chainOf protocol.suite opening passages).h ∧
      ∃ last, completed = some last ∧
        last.cipherA =
          ((chainOf protocol.suite opening passages).ending protocol.suite).first

/-- The first completed session, when one more session is looked at. -/
def orCompleted (completed : Option Session) (after : Session) : Option Session :=
  completed.or (if after.isComplete then some after else none)

namespace Records

variable {protocol : Protocol} {opening : Chain} {session after : Session}
  {passages : List Passage} {completed : Option Session} {passage : Passage}

theorem fits_append (records : Records protocol opening session passages completed)
    (next : passage.Fits protocol session.counter) (index : Nat) (other : Passage)
    (there : (passages ++ [passage])[index]? = some other) :
    other.Fits protocol index := by
  rcases Nat.lt_or_ge index passages.length with earlier | later
  · rw [List.getElem?_append_left earlier] at there
    exact records.fits index other there
  · rw [List.getElem?_append_right later] at there
    have inside : index - passages.length < 1 := (List.getElem?_eq_some_iff.1 there).1
    have last : index = session.counter := by
      rw [records.counter]
      omega
    rw [last, records.counter, Nat.sub_self] at there
    obtain rfl := Option.some.inj there
    rw [last]
    exact next

/-- Nothing is lost of a completed session. -/
theorem completed_same (records : Records protocol opening session passages completed)
    (sameHash : after.handshakeHash = session.handshakeHash) :
    orCompleted completed after = completed := by
  cases hashed : session.handshakeHash with
  | none =>
      rw [hashed] at sameHash
      simp [orCompleted, Session.isComplete, sameHash]
  | some hash =>
      obtain ⟨-, -, last, found, -⟩ := records.ended hash hashed
      simp [orCompleted, found]

/-- What takes nothing in and starts no handshake. -/
theorem extend {carried : List Passage}
    (records : Records protocol opening session passages completed)
    (sameProtocol : after.protocol = session.protocol)
    (sameHash : after.handshakeHash = session.handshakeHash)
    (sameState : ∀ state ∈ after.handshake, state ∈ session.handshake)
    (counter : after.counter = session.counter + carried.length)
    (fits : ∀ (index : Nat) (passage : Passage),
      (passages ++ carried)[index]? = some passage → passage.Fits protocol index)
    (silent : carried.flatMap (·.entries) = []) :
    Records protocol opening after (passages ++ carried)
      (orCompleted completed after) := by
  have sameChain : chainOf protocol.suite opening (passages ++ carried) =
      chainOf protocol.suite opening passages := by
    rw [chainOf_append, chainOf, silent, List.foldl_nil]
  rw [records.completed_same sameHash]
  constructor
  · exact sameProtocol.trans records.protocol_eq
  · rw [counter, records.counter, List.length_append]
  · exact fits
  · intro state held
    rw [sameChain]
    exact records.going state (sameState state held)
  · rw [sameHash]
    exact records.uncompleted
  · rw [sameHash, sameChain, List.length_append]
    intro hash hashed
    obtain ⟨late, rest⟩ := records.ended hash hashed
    exact ⟨Nat.lt_add_right _ late, rest⟩

theorem handshakeHash_eq_none
    (records : Records protocol opening session passages completed)
    (early : session.counter ≤ protocol.finalIndex) : session.handshakeHash = none := by
  cases hashed : session.handshakeHash with
  | none => rfl
  | some hash =>
      have late := (records.ended hash hashed).1
      rw [← records.counter] at late
      exact absurd early (Nat.not_le.2 late)

theorem exchange {call : Session.Call} {outcome : Outcome}
    (records : Records protocol opening session passages completed)
    (compiled : protocol.IsCompiled)
    (exchanges : session.Exchanges call passage outcome) :
    Records protocol opening (session.advance outcome) (passages ++ [passage])
      (orCompleted completed (session.advance outcome)) := by
  obtain rfl := records.protocol_eq
  obtain ⟨early, state, message, held, there, carries⟩ := exchanges.carries compiled
  have chain : chainOf session.protocol.suite opening (passages ++ [passage]) =
      passage.entries.foldl (·.mix session.protocol.suite) state.symmetric.chain := by
    rw [chainOf_append, ← records.going state held, chainOf, List.flatMap_singleton]
  have unhashed := records.handshakeHash_eq_none early
  have fits :=
    records.fits_append (.handshake early there carries.mixings carries.wire_eq)
  have length : (session.advance outcome).counter = (passages ++ [passage]).length := by
    rw [Session.counter_advance, records.counter, List.length_append,
      List.length_singleton]
  have result := exchanges.ends_or_goes_on compiled held
  rw [← chain] at result
  rcases result with ⟨final, ends⟩ | ⟨-, ends, goes⟩
  · -- The split takes the transcript away and leaves what it makes of it.
    have finished : (session.advance outcome).handshake = none := by
      rw [Session.advance, ends]
    have hashes : (session.advance outcome).handshakeHash =
        some (chainOf session.protocol.suite opening (passages ++ [passage])).h := by
      rw [Session.advance, ends]
      rfl
    constructor
    · exact Session.protocol_advance outcome
    · exact length
    · exact fits
    · intro state held
      cases finished.symm.trans held
    · intro missing
      cases hashes.symm.trans missing
    · intro hash hashed
      refine ⟨?_, ?_, session.advance outcome, ?_, ?_⟩
      · rw [← length, Session.counter_advance, final]
        exact Nat.lt_succ_self _
      · exact Option.some.inj (hashed.symm.trans hashes)
      · rw [orCompleted, records.uncompleted unhashed, Session.isComplete, hashes]
        rfl
      · rw [Session.advance, ends]
  · have stillUnhashed : (session.advance outcome).handshakeHash = none := by
      rw [Session.advance, ends]
      exact unhashed
    constructor
    · exact Session.protocol_advance outcome
    · exact length
    · exact fits
    · intro next held
      rw [Session.advance, ends] at held
      obtain rfl := Option.some.inj held
      exact goes
    · intro missing
      rw [orCompleted, records.uncompleted unhashed, Session.isComplete, missing]
      rfl
    · intro hash hashed
      cases stillUnhashed.symm.trans hashed

/-- Every event is recorded. -/
theorem moves {carried : Option Passage}
    (records : Records protocol opening session passages completed)
    (compiled : protocol.IsCompiled) (moves : session.Moves carried after) :
    Records protocol opening after (passages ++ carried.toList)
      (orCompleted completed after) := by
  have sameProtocol := moves.protocol_eq
  have counter := moves.counter_eq
  have noFurther : ∀ (index : Nat) (passage : Passage),
      (passages ++ [])[index]? = some passage → passage.Fits protocol index := by
    rw [List.append_nil]
    exact records.fits
  cases moves with
  | stays =>
      exact records.extend sameProtocol rfl (fun _ held => held) counter noFurther rfl
  | cleared =>
      refine records.extend sameProtocol rfl ?_ counter noFurther rfl
      intro state held
      cases held
  | exchanged usable exchanges => exact records.exchange compiled exchanges
  | @transported _ channel _ _ _ usable late =>
      rw [records.protocol_eq] at late
      cases channel <;>
        exact records.extend sameProtocol rfl (fun _ held => held) counter
          (records.fits_append (.transport late rfl)) rfl
  | @rekeyed _ channel =>
      cases channel <;>
        exact records.extend sameProtocol rfl (fun _ held => held) counter noFurther rfl

end Records

/-! ## What a record says about the handshake -/

section Handshake

variable {protocol : Protocol} {opening : Chain} {session : Session}
  {passages : List Passage}
  {completed : Option Session}
  (records : Records protocol opening session passages completed)
include records

/-- Transport messages take nothing in. -/
theorem Records.entries_eq :
    passages.flatMap (·.entries) =
      (passages.take (protocol.finalIndex + 1)).flatMap (·.entries) := by
  have silent : (passages.drop (protocol.finalIndex + 1)).flatMap (·.entries) = [] := by
    rw [List.flatMap_eq_nil_iff]
    intro passage mem
    obtain ⟨index, there⟩ := List.mem_iff_getElem?.1 mem
    rw [List.getElem?_drop] at there
    cases records.fits _ passage there with
    | transport late silent => exact silent
    | handshake early => omega
  conv => lhs; rw [← List.take_append_drop (protocol.finalIndex + 1) passages]
  rw [List.flatMap_append, silent, List.append_nil]

/-- Each message of the handshake is there. -/
theorem Records.exists_passage (late : protocol.finalIndex < passages.length)
    {index : Nat} (early : index ≤ protocol.finalIndex) :
    ∃ passage message, passages[index]? = some passage ∧
      protocol.pattern.messages[index]? = some message ∧
      passage.entries.map (·.mixing) = mixingsOf protocol.hasPsk message.tokens ∧
      Entry.wire passage.entries = passage.wire := by
  have there := List.getElem?_eq_getElem (Nat.lt_of_le_of_lt early late)
  cases records.fits index _ there with
  | transport after => exact absurd early (Nat.not_le.2 after)
  | handshake _ found mixings wire => exact ⟨_, _, there, found, mixings, wire⟩

theorem Records.mixings_eq (late : protocol.finalIndex < passages.length) :
    ((passages.take (protocol.finalIndex + 1)).map fun passage =>
      passage.entries.map (·.mixing)) =
      protocol.handshakeMessages.map fun message =>
        mixingsOf protocol.hasPsk message.tokens := by
  apply List.ext_getElem?
  intro index
  simp only [List.getElem?_map, List.getElem?_take, Protocol.handshakeMessages]
  by_cases early : index < protocol.finalIndex + 1
  · obtain ⟨passage, message, there, found, mixings, -⟩ :=
      records.exists_passage late (Nat.le_of_lt_succ early)
    simp only [early, ↓reduceIte, there, found, Option.map_some, mixings]
  · simp only [early, ↓reduceIte, Option.map_none]

end Handshake

theorem Session.completed_append (session : Session) (history : List Event)
    (event : Event) :
    session.completed (history ++ [event]) =
      orCompleted (session.completed history)
        ((session.follow history).next event) := by
  induction history generalizing session with
  | nil =>
      simp only [List.nil_append, completed, orCompleted]
      split
      · rfl
      · rfl
  | cons first rest ih =>
      simp only [List.cons_append, completed]
      split
      · rfl
      · exact ih _

theorem Records.follow {protocol : Protocol} {opening : Chain} {begun : Session}
    (records : Records protocol opening begun [] none)
    (fresh : begun.handshakeHash = none) (compiled : protocol.IsCompiled)
    (history : List Event) :
    Records protocol opening (begun.follow history) (begun.passages history)
      (begun.completed history) := by
  induction history using List.reverseRecOn with
  | nil =>
      have uncompleted : begun.completed [] = none := by
        rw [Session.completed, Session.isComplete, fresh]
        rfl
      rw [uncompleted]
      exact records
  | append_singleton history event ih =>
      rw [Session.follow_append, Session.passages_append, Session.completed_append,
        Session.passages, Session.passages, List.append_nil]
      exact ih.moves compiled (Session.moves_next _ event)

/-! ## The record of a run -/

theorem Machine.toOption_value_own (machine : Machine) (kind : KeyKind) :
    (machine.value (.own kind)).toOption =
      (machine.state.own kind).map (·.publicKey) := by
  cases kind with
  | ephemeral =>
      cases held : machine.state.e <;>
        simp [value, HandshakeState.keyPair, Keys.own, held, Except.map,
          Except.toOption]
  | static =>
      cases held : machine.state.s <;>
        simp [value, HandshakeState.keyPair, Keys.own, held, Except.map,
          Except.toOption]

theorem Machine.toOption_value_peer (machine : Machine) (kind : KeyKind) :
    (machine.value (.peer kind)).toOption = machine.state.peer kind := by
  cases kind with
  | ephemeral => cases held : machine.state.re
      <;> simp [value, value.known, Keys.peer, held, Except.toOption]
  | static => cases held : machine.state.rs
      <;> simp [value, value.known, Keys.peer, held, Except.toOption]

namespace Run

variable {protocol : Protocol} (run : Run protocol)

/-- The machine that starts the handshake. -/
def starter : Machine where
  state :=
    .ofKeys protocol
      { run.keys with psk := if protocol.hasPsk then run.keys.psk else none }
  frame := { prologue := run.prologue }

/-- What is taken in before the first message. -/
def opening : List Entry :=
  run.starter.transcript protocol.suite (fun _ => default)
    (protocol.initialization run.role)

/-- All that the transcript has taken in. -/
def entries : List Entry := run.opening ++ run.passages.flatMap (·.entries)

/-- What each message of the handshake hashes as it is. -/
def handshakeData : List (List (Option Bytes)) :=
  (run.passages.take (protocol.finalIndex + 1)).map fun passage =>
    passage.entries.map Entry.data?

/-- The inputs of the hash function. -/
def hashInputs : List Bytes := protocol.origin.hashInputs protocol.suite run.entries

/-- The secrets that were mixed in: shared secrets of key agreements, the preshared
secret, and with it the ephemeral public keys. -/
def secrets : List Bytes := run.entries.filterMap Entry.secret?

/-- The chaining keys and secrets from which keys were derived. -/
def derivations : List (Bytes × Bytes) :=
  protocol.origin.derivations protocol.suite run.entries

/-- The public keys of the pre-messages as the party knows them. -/
def announcedKeys : List (Option Bytes) :=
  protocol.pattern.announced.map fun entry =>
    if entry.1 = run.role then (run.keys.own entry.2).map (·.publicKey)
    else run.keys.peer entry.2

/-- The key that the first transport cipher got at the end of the handshake. -/
def splitKey : Option Bytes := (run.begun.completed run.history).bind (·.cipherA.key)

theorem chain_eq :
    chainOf protocol.suite
      (run.opening.foldl (·.mix protocol.suite) protocol.origin) run.passages =
      run.entries.foldl (·.mix protocol.suite) protocol.origin := by
  rw [chainOf, entries, List.foldl_append]

variable (compiled : protocol.IsCompiled)
include compiled

/-- The keys that a party hashes at the start are those that it knows. -/
theorem opening_eq :
    ∃ announced : List Bytes, run.announcedKeys = announced.map some ∧
      run.opening = (run.prologue :: announced).map (⟨.hash, ·⟩) := by
  obtain ⟨-, handshake, begins, -⟩ := Session.of_start run.started
  obtain ⟨values, known, -⟩ := HandshakeState.of_start compiled.initialization_eq begins
  have taken : run.opening = values.map (⟨.hash, ·⟩) := by
    rw [opening, compiled.initialization_eq, Pattern.initialization_eq_map]
    exact Machine.transcript_map_mixHash known
  cases values with
  | nil => cases known
  | cons first announced =>
      obtain ⟨prologue, others⟩ := List.cons.inj known
      obtain rfl : run.prologue = first := Except.ok.inj prologue
      refine ⟨announced, ?_, taken⟩
      have asKnown := congrArg (List.map Except.toOption) others
      rw [List.map_map, List.map_map, List.map_map] at asKnown
      refine Eq.trans (List.map_congr_left ?_) asKnown
      intro entry _
      by_cases own : entry.1 = run.role
      · simp only [own, ↓reduceIte, Function.comp_apply, Machine.toOption_value_own]
        cases entry.2 <;> rfl
      · simp only [own, ↓reduceIte, Function.comp_apply, Machine.toOption_value_peer]
        cases entry.2 <;> rfl

theorem mixings_opening :
    run.opening.map (·.mixing) =
      List.replicate (protocol.pattern.announced.length + 1) .hash := by
  obtain ⟨announced, keys, opening⟩ := run.opening_eq compiled
  have length : announced.length = protocol.pattern.announced.length := by
    have lengths := congrArg List.length keys
    simp only [announcedKeys, List.length_map] at lengths
    exact lengths.symm
  rw [opening, List.map_map, ← length]
  exact List.map_const'

theorem records :
    Records protocol (run.opening.foldl (·.mix protocol.suite) protocol.origin)
      run.session run.passages (run.begun.completed run.history) := by
  obtain ⟨-, handshake, begins, begun⟩ := Session.of_start run.started
  have goesOn : Instruction.split ∉ protocol.initialization run.role := by
    rw [compiled.initialization_eq, Pattern.initialization_eq_map]
    simp
  have chain : handshake.symmetric.chain =
      run.opening.foldl (·.mix protocol.suite) protocol.origin := by
    simp only [HandshakeState.start] at begins
    split at begins
    next machine ran =>
      obtain rfl := Except.ok.inj begins
      exact (Machine.of_run ran goesOn).1
    next => cases begins
  have fresh : run.begun.handshakeHash = none := by rw [begun]
  refine Records.follow ?_ fresh compiled run.history
  constructor
  · rw [begun]
  · rw [begun]
    rfl
  · intro index passage there
    simp at there
  · intro state held
    rw [begun] at held
    obtain rfl := Option.some.inj held
    rw [chainOf, List.flatMap_nil, List.foldl_nil, chain]
  · intro _
    rfl
  · intro hash hashed
    cases fresh.symm.trans hashed

/-- A completed handshake has had all its messages. -/
theorem finalIndex_lt_passages (complete : run.session.isComplete) :
    protocol.finalIndex < run.passages.length := by
  obtain ⟨hash, hashed⟩ := Option.isSome_iff_exists.1 complete
  exact ((run.records compiled).ended hash hashed).1

/-- All runs of a protocol that have completed the handshake take in entries
of the same kinds. -/
theorem mixings_entries (complete : run.session.isComplete) :
    run.entries.map (·.mixing) =
      List.replicate (protocol.pattern.announced.length + 1) .hash ++
        protocol.handshakeMessages.flatMap fun message =>
          mixingsOf protocol.hasPsk message.tokens := by
  have records := run.records compiled
  have late := run.finalIndex_lt_passages compiled complete
  rw [entries, List.map_append, run.mixings_opening compiled, records.entries_eq,
    List.map_flatMap, List.flatMap_def, records.mixings_eq late, ← List.flatMap_def]

/-- The hash of a completed handshake is that of its entries. -/
theorem handshakeHash_eq {hash : Bytes}
    (hashed : run.session.handshakeHash = some hash) :
    hash = (run.entries.foldl (·.mix protocol.suite) protocol.origin).h := by
  rw [← run.chain_eq]
  exact ((run.records compiled).ended hash hashed).2.1

theorem splitKey_eq (complete : run.session.isComplete) :
    run.splitKey =
      ((run.entries.foldl (·.mix protocol.suite) protocol.origin).ending
        protocol.suite).first.key := by
  obtain ⟨hash, hashed⟩ := Option.isSome_iff_exists.1 complete
  obtain ⟨-, -, last, found, cipher⟩ := (run.records compiled).ended hash hashed
  rw [splitKey, found, Option.bind_some, cipher, run.chain_eq]

end Run

/-! ## Binding -/

namespace Run

section Agreement

variable {protocol : Protocol} {own peer : Run protocol}
  (compiled : protocol.IsCompiled)
include compiled

/-- Runs that have hashed the same data have the same start. -/
theorem start_eq_of_data
    (same : own.opening.map Entry.data? = peer.opening.map Entry.data?) :
    own.prologue = peer.prologue ∧ own.announcedKeys = peer.announcedKeys := by
  obtain ⟨announced, keys, opening⟩ := own.opening_eq compiled
  obtain ⟨announced', keys', opening'⟩ := peer.opening_eq compiled
  have known : ∀ values : List Bytes,
      (values.map (⟨.hash, ·⟩)).map Entry.data? = values.map some := by
    intro values
    rw [List.map_map]
    rfl
  rw [opening, opening', known, known, List.map_cons, List.map_cons] at same
  obtain ⟨prologue, rest⟩ := List.cons.inj same
  rw [keys, keys']
  exact ⟨Option.some.inj prologue, rest⟩

/-- What the messages of the handshake hash has the same lengths in all runs. -/
theorem lengths_eq (run : Run protocol) (complete : run.session.isComplete) :
    run.handshakeData.map List.length =
      protocol.handshakeMessages.map fun message =>
        (mixingsOf protocol.hasPsk message.tokens).length := by
  have late := run.finalIndex_lt_passages compiled complete
  have lengths :=
    congrArg (List.map List.length) ((run.records compiled).mixings_eq late)
  simp only [handshakeData, List.map_map, Function.comp_def,
    List.length_map] at lengths ⊢
  exact lengths

/-- The hashed data of a handshake falls apart into that of the start and
that of each message. -/
theorem data_eq_of_entries (ownComplete : own.session.isComplete)
    (peerComplete : peer.session.isComplete)
    (same : own.entries.map Entry.data? = peer.entries.map Entry.data?) :
    own.opening.map Entry.data? = peer.opening.map Entry.data? ∧
      own.handshakeData = peer.handshakeData := by
  have sameLength : own.opening.length = peer.opening.length := by
    have kinds := congrArg List.length
      ((own.mixings_opening compiled).trans (peer.mixings_opening compiled).symm)
    rwa [List.length_map, List.length_map] at kinds
  rw [entries, entries, List.map_append, List.map_append] at same
  obtain ⟨opening, rest⟩ :=
    List.append_inj same (by rw [List.length_map, List.length_map, sameLength])
  rw [(own.records compiled).entries_eq, (peer.records compiled).entries_eq,
    List.map_flatMap, List.map_flatMap, List.flatMap_def, List.flatMap_def] at rest
  refine ⟨opening, List.eq_iff_flatten_eq.2 ⟨rest, ?_⟩⟩
  rw [lengths_eq compiled own ownComplete, lengths_eq compiled peer peerComplete]

theorem wire_eq_of_data (ownComplete : own.session.isComplete)
    (peerComplete : peer.session.isComplete)
    (same : own.handshakeData = peer.handshakeData) {index : Nat}
    (early : index ≤ protocol.finalIndex) :
    ∃ message, own.wire[index]? = some message ∧ peer.wire[index]? = some message := by
  obtain ⟨passage, -, there, -, -, wire⟩ :=
    (own.records compiled).exists_passage
      (own.finalIndex_lt_passages compiled ownComplete) early
  obtain ⟨passage', -, there', -, -, wire'⟩ :=
    (peer.records compiled).exists_passage
      (peer.finalIndex_lt_passages compiled peerComplete) early
  have sameThere := congrArg (·[index]?) same
  simp only [handshakeData, List.getElem?_map, List.getElem?_take,
    Nat.lt_succ_of_le early, ↓reduceIte, there, there', Option.map_some,
    Option.some.injEq] at sameThere
  have sameWire : passage'.wire = passage.wire := by
    rw [← wire, ← wire', Entry.wire_eq_of_data sameThere]
  refine ⟨passage.wire, ?_, ?_⟩
  · rw [Run.wire, List.getElem?_map]
    exact congrArg (Option.map _) there
  · rw [Run.wire, List.getElem?_map, ← sameWire]
    exact congrArg (Option.map _) there'

/-- There is one secret for each token that bears a key. -/
theorem length_secrets (run : Run protocol) (complete : run.session.isComplete) :
    run.secrets.length =
      (protocol.handshakeMessages.flatMap (·.tokens)).countP
        (·.bearsKey protocol.hasPsk) := by
  have atStart :
      (List.replicate (protocol.pattern.announced.length + 1) Mixing.hash).countP
        (· ≠ .hash) = 0 := by
    rw [List.countP_replicate]
    rfl
  rw [secrets, Chain.length_secrets, run.mixings_entries compiled complete,
    List.countP_append, atStart, Nat.zero_add, List.countP_flatMap, List.countP_flatMap]
  congr 2
  funext message
  exact countP_mixingsOf protocol.hasPsk message.tokens

end Agreement

/-- The handshake hash binds the transcript.  Whatever the roles, the keys and the
histories of two runs of a protocol, if both have completed the handshake with the same
hash, they agree on the prologue, on the keys of the pre-messages and on every message
of the handshake as it went over the wire; or among what they gave the hash function
there are two different inputs with the same digest. -/
theorem hash_binds_transcript {draft : Draft} {suite : Suite} {attacker : AttackerModel}
    {protocol : Protocol}
    (compiled : Protocol.compile draft suite attacker = .ok protocol)
    (own peer : Run protocol) {hash : Bytes}
    (ownHash : own.session.handshakeHash = some hash)
    (peerHash : peer.session.handshakeHash = some hash) :
    (own.prologue = peer.prologue ∧ own.announcedKeys = peer.announcedKeys ∧
      ∀ index ≤ protocol.finalIndex, ∃ message,
        own.wire[index]? = some message ∧ peer.wire[index]? = some message) ∨
    ∃ one ∈ own.hashInputs, ∃ other ∈ peer.hashInputs,
      one ≠ other ∧ suite.hash.digest one = suite.hash.digest other := by
  obtain ⟨wellFormed, rfl, -⟩ := Protocol.isCompiled_of_compile compiled
  have ownComplete : own.session.isComplete := by rw [Session.isComplete, ownHash]; rfl
  have peerComplete : peer.session.isComplete := by
    rw [Session.isComplete, peerHash]; rfl
  have mixings := (own.mixings_entries wellFormed ownComplete).trans
    (peer.mixings_entries wellFormed peerComplete).symm
  have sameHash := (own.handshakeHash_eq wellFormed ownHash).symm.trans
    (peer.handshakeHash_eq wellFormed peerHash)
  rcases Chain.data_eq_or_collision protocol.length_origin mixings sameHash with
    same | collision
  · left
    obtain ⟨opening, messages⟩ :=
      data_eq_of_entries wellFormed ownComplete peerComplete same
    obtain ⟨prologue, announced⟩ := start_eq_of_data wellFormed opening
    refine ⟨prologue, announced, ?_⟩
    intro index early
    exact wire_eq_of_data wellFormed ownComplete peerComplete messages early
  · exact .inr collision

open Catalog in
/-- Two responders know the sender's static key beforehand and read the same
message, one of them after a message that is cut off, and the other before it
is asked to send. -/
theorem hash_binds_transcript_of_K :
    ∃ protocol, ∃ own peer : Run protocol, ∃ hash,
      Protocol.compile (entry "K" [⟨.send, .static⟩] [Catalog.send [e]]).toDraft
        {} .passive = .ok protocol ∧
      own.wire = [List.replicate 40 7] ∧
      own.announcedKeys = [some (List.replicate 32 9)] ∧
      own.session.handshakeHash = some hash ∧ peer.session.handshakeHash = some hash ∧
      ((own.prologue = peer.prologue ∧ own.announcedKeys = peer.announcedKeys ∧
        ∀ index ≤ protocol.finalIndex, ∃ message,
          own.wire[index]? = some message ∧ peer.wire[index]? = some message) ∨
      ∃ one ∈ own.hashInputs, ∃ other ∈ peer.hashInputs,
        one ≠ other ∧ HashFunction.digest ({} : Suite).hash one =
          HashFunction.digest ({} : Suite).hash other) := by
  obtain ⟨protocol, begun, hash, compiled, started, announced, wire, short, hashed⟩ :
      ∃ protocol begun hash,
        Protocol.compile (entry "K" [⟨.send, .static⟩] [Catalog.send [e]]).toDraft
          {} .passive = .ok protocol ∧
        Session.start protocol .responder [1, 2] { rs := some (List.replicate 32 9) } =
          .ok begun ∧
        protocol.pattern.announced = [(.initiator, .static)] ∧
        (begun.passages [.call (.recv (fun _ => default) [7]),
          .call (.recv (fun _ => default) (List.replicate 40 7))]).map (·.wire) =
            [List.replicate 40 7] ∧
        (begun.call (.recv (fun _ => default) [7])).result = .error (.tooShort 32 1) ∧
        (begun.follow
          [.call (.recv (fun _ => default) (List.replicate 40 7))]).handshakeHash =
            some hash :=
    ⟨_, _, _, rfl, rfl, rfl, rfl, rfl, rfl⟩
  let own : Run protocol :=
    { role := .responder, prologue := [1, 2], begun, started
      keys := { rs := some (List.replicate 32 9) }
      history := [.call (.recv (fun _ => default) [7]),
        .call (.recv (fun _ => default) (List.replicate 40 7))] }
  let peer : Run protocol :=
    { own with
      history := [.call (.recv (fun _ => default) (List.replicate 40 7))] ++
        [.call (.send (fun _ => default) [])] }
  have known : own.announcedKeys = [some (List.replicate 32 9)] := by
    rw [announcedKeys, announced]
    rfl
  obtain ⟨wellFormed, -, passive⟩ := Protocol.isCompiled_of_compile compiled
  rw [← own.protocol_begun] at wellFormed passive
  have ownHash : own.session.handshakeHash = some hash := by
    have same : begun.next (.call (.recv (fun _ => default) [7])) = begun :=
      Session.session_call_of_error passive short
    rw [session, Session.follow, List.foldl_cons, same]
    exact hashed
  have peerHash : peer.session.handshakeHash = some hash := by
    have phase :=
      Session.Phase.follow (.handshake (Session.inHandshake_of_start started))
        wellFormed [.call (.recv (fun _ => default) (List.replicate 40 7))]
    rw [session, Session.follow_append]
    rw [← Session.protocol_follow] at wellFormed
    exact phase.hash_follow wellFormed hashed _
  exact ⟨protocol, own, peer, hash, compiled, wire, known, ownHash, peerHash,
    hash_binds_transcript compiled own peer ownHash peerHash⟩

end Run

/-- A message of the preshared secret alone ends the handshake of its sender. -/
theorem Session.send_of_psk {session : Session} {generate : KeyGenerator} {step : Step}
    {state : HandshakeState} {secret payload : Bytes} (usable : session.failed = false)
    (going : session.due = some (step, state)) (turn : step.sender = session.role)
    (program : step.write = [.mixKeyAndHash .psk, .authEncrypt .payload, .split])
    (held : state.psk = some secret)
    (fits : payload.length + tagLength ≤ maxMessageLength) :
    (session.next (.call (.send generate payload))).isComplete ∧
      (session.next (.call (.send generate payload))).cipherA.key =
        some ((session.protocol.suite.derive
          (state.symmetric.mixKeyAndHash session.protocol.suite secret).ck
            []).take keyLength) := by
  obtain ⟨early, found, started⟩ := Session.due_eq_some.1 going
  obtain ⟨outcome, chain, wrote, length, ends, sameKey⟩ :=
    HandshakeState.write_of_psk held payload
  rw [← length] at fits
  have sent : session.next (.call (.send generate payload)) =
      session.advance outcome := by
    rw [Session.next, Session.call,
      Session.send_handshake usable early found started turn, program, wrote]
    simp [Session.commit, Nat.not_lt.2 fits]
  rw [sent, Session.advance, ends, ← sameKey]
  exact ⟨rfl, rfl⟩

namespace Run

/-- The first transport key binds the secrets.  Both runs have taken in one secret for
each token that bears a key.  If they got the same key for the first transport cipher,
these are the same secrets in the same order; or among the derivations of the two runs
there are two different ones that come to the same first key. -/
theorem split_key_binds_secrets {draft : Draft} {suite : Suite}
    {attacker : AttackerModel} {protocol : Protocol}
    (compiled : Protocol.compile draft suite attacker = .ok protocol)
    (own peer : Run protocol) (ownComplete : own.session.isComplete)
    (peerComplete : peer.session.isComplete) (sameKey : own.splitKey = peer.splitKey) :
    own.secrets.length =
      (protocol.handshakeMessages.flatMap (·.tokens)).countP
        (·.bearsKey protocol.hasPsk) ∧
    (own.secrets = peer.secrets ∨
      ∃ one ∈ own.derivations, ∃ other ∈ peer.derivations,
        one ≠ other ∧ (suite.derive one.1 one.2).take 32 =
          (suite.derive other.1 other.2).take 32) := by
  obtain ⟨wellFormed, rfl, -⟩ := Protocol.isCompiled_of_compile compiled
  refine ⟨length_secrets wellFormed own ownComplete, ?_⟩
  have mixings := (own.mixings_entries wellFormed ownComplete).trans
    (peer.mixings_entries wellFormed peerComplete).symm
  rw [own.splitKey_eq wellFormed ownComplete,
    peer.splitKey_eq wellFormed peerComplete] at sameKey
  exact Chain.secrets_eq_or_collision mixings sameKey

open Catalog in
/-- Two senders with the same preshared secret send different texts. -/
theorem split_key_binds_secrets_of_psk :
    ∃ protocol, ∃ own peer : Run protocol,
      Protocol.compile (entry "P" [] [Catalog.send [psk]]).toDraft {} .active =
        .ok protocol ∧
      own.session.isComplete ∧ peer.session.isComplete ∧ own.splitKey = peer.splitKey ∧
      own.secrets.length = 1 ∧
      (own.secrets = peer.secrets ∨
        ∃ one ∈ own.derivations, ∃ other ∈ peer.derivations,
          one ≠ other ∧
          (Suite.derive {} one.1 one.2).take 32 =
            (Suite.derive {} other.1 other.2).take 32) := by
  obtain ⟨protocol, begun, step, state, compiled, started, messages, going, turn,
      program, held, fresh⟩ :
      ∃ protocol begun step state,
        Protocol.compile (entry "P" [] [Catalog.send [psk]]).toDraft {} .active =
          .ok protocol ∧
        Session.start protocol .initiator [] { psk := some (List.replicate 32 5) } =
          .ok begun ∧
        (protocol.handshakeMessages.flatMap (·.tokens)).countP
          (·.bearsKey protocol.hasPsk) = 1 ∧
        begun.due = some (step, state) ∧ step.sender = begun.role ∧
        step.write = [.mixKeyAndHash .psk, .authEncrypt .payload, .split] ∧
        state.psk = some (List.replicate 32 5) ∧ begun.isComplete = false :=
    ⟨_, _, _, _, rfl, rfl, rfl, rfl, rfl, rfl, rfl, rfl⟩
  have usable := (Session.inHandshake_of_start started).usable
  let sender (payload : Bytes) : Run protocol :=
    { role := .initiator, prologue := [], begun, started
      keys := { psk := some (List.replicate 32 5) }
      history := [.call (.send (fun _ => default) payload)] }
  have sends : ∀ payload : Bytes, payload.length + tagLength ≤ maxMessageLength →
      (sender payload).session.isComplete ∧
        (sender payload).splitKey =
          some ((begun.protocol.suite.derive
            (state.symmetric.mixKeyAndHash begun.protocol.suite
              (List.replicate 32 5)).ck []).take keyLength) := by
    intro payload fits
    obtain ⟨complete, key⟩ := Session.send_of_psk usable going turn program held fits
    refine ⟨complete, ?_⟩
    simp only [splitKey, sender, Session.completed, fresh, complete, Bool.false_eq_true,
      ↓reduceIte, Option.bind_some, key]
  obtain ⟨ownComplete, ownKey⟩ := sends [1, 2, 3] (by decide)
  obtain ⟨peerComplete, peerKey⟩ := sends [] (by decide)
  have sameKey := ownKey.trans peerKey.symm
  obtain ⟨count, binds⟩ :=
    split_key_binds_secrets compiled _ _ ownComplete peerComplete sameKey
  exact ⟨protocol, _, _, compiled, ownComplete, peerComplete, sameKey,
    count.trans messages, binds⟩

end Run

end Noise
