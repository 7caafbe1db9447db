import Noise.Proofs.Handshake.Supply
import Noise.Proofs.Pattern.Acceptance
import Noise.Proofs.Session.Turns

/-!
# Sessions that find their keys

A session starts with its static key and the shared secret, if the role or the pattern
uses them, and with the keys of the pre-messages.  A pattern whose agreements are
between keys that were sent before, or announced in the pre-messages, therefore never
leaves a session without a key, whatever the other party sends.
-/

namespace Noise

/-! ## Patterns that introduce their keys -/

namespace Pattern

/-- The tokens of the first messages in order, each with the party that writes it. -/
def spoken (pattern : Pattern) (count : Nat) : List (Role × Token) :=
  (pattern.messages.take count).flatMap fun message =>
    message.tokens.map (message.direction.sender, ·)

/-- Whether both keys of every agreement in the first messages come before it, in the
pre-messages or as tokens of their owners: first the initiator's key that the token
names, then the responder's. -/
def Introduces (pattern : Pattern) (count : Nat) : Prop :=
  ∀ earlier sender initiator responder later,
    pattern.spoken count = earlier ++ (sender, .dh initiator responder) :: later →
    (.initiator, initiator) ∈ pattern.announced ++ introduced earlier ∧
      (.responder, responder) ∈ pattern.announced ++ introduced earlier

theorem introduces_iff {pattern : Pattern} {count : Nat} :
    pattern.Introduces count ↔ agreeOn pattern.announced (pattern.spoken count) :=
  agreeOn_iff.symm

instance (pattern : Pattern) (count : Nat) : Decidable (pattern.Introduces count) :=
  decidable_of_iff _ introduces_iff.symm

variable {pattern : Pattern} {index count : Nat} {message : Message}

theorem spoken_succ (there : pattern.messages[index]? = some message) :
    pattern.spoken (index + 1) =
      pattern.spoken index ++ message.tokens.map (message.direction.sender, ·) := by
  simp [spoken, List.take_add_one, there]

theorem exists_spoken_eq (pattern : Pattern) (fewer : index ≤ count) :
    ∃ rest, pattern.spoken count = pattern.spoken index ++ rest := by
  have parted := List.take_append_drop index (pattern.messages.take count)
  rw [List.take_take, Nat.min_eq_left fewer] at parted
  rw [spoken, ← parted, List.flatMap_append]
  exact ⟨_, rfl⟩

/-- A pattern that introduces its keys does so up to every message. -/
theorem Introduces.mono (introduces : pattern.Introduces count)
    (fewer : index ≤ count) :
    pattern.Introduces index := by
  obtain ⟨rest, whole⟩ := pattern.exists_spoken_eq fewer
  rw [introduces_iff, whole, agreeOn_append, Bool.and_eq_true] at introduces
  exact introduces_iff.2 introduces.1

/-- Every agreement of a message is between keys that are known by then. -/
theorem Introduces.agreeOn (introduces : pattern.Introduces count)
    (early : index < count) (there : pattern.messages[index]? = some message) :
    agreeOn (pattern.announced ++ introduced (pattern.spoken index))
      (message.tokens.map (message.direction.sender, ·)) := by
  have upToHere := introduces_iff.1 (introduces.mono early)
  rw [spoken_succ there, agreeOn_append, Bool.and_eq_true] at upToHere
  exact upToHere.2

/-- An empty message says nothing. -/
theorem spoken_normalize (pattern : Pattern) (count : Nat) :
    pattern.normalize.spoken count = pattern.spoken count := by
  rw [normalize]
  split
  · simp only [spoken, List.take_append, List.flatMap_append]
    cases count - pattern.messages.length <;> simp
  · rfl

theorem announced_normalize (pattern : Pattern) :
    pattern.normalize.announced = pattern.announced := by
  rw [normalize]
  split <;> rfl

theorem Introduces.normalize (introduces : pattern.Introduces pattern.messages.length)
    (count : Nat) :
    pattern.normalize.Introduces count := by
  rw [introduces_iff, spoken_normalize, announced_normalize, ← introduces_iff]
  rcases Nat.le_total count pattern.messages.length with fewer | more
  · exact introduces.mono fewer
  · rw [introduces_iff, spoken, List.take_of_length_le (Nat.le_refl _)] at introduces
    rw [introduces_iff, spoken, List.take_of_length_le more]
    exact introduces

end Pattern

/-- Every standard pattern introduces its keys. -/
theorem Catalog.introduces : ∀ pattern ∈ patterns,
    pattern.Introduces pattern.messages.length := by
  decide

/-! ## Keys at the start and along the way -/

namespace Session

variable {protocol : Protocol} {role : Role} {prologue : Bytes} {keys : Keys}
  {session : Session}

/-- A session that was started has the keys that are asked for at the start. -/
theorem given_of_start (started : start protocol role prologue keys = .ok session) :
    (protocol.requires role (.own .static) → keys.s.isSome) ∧
    (protocol.hasPsk → keys.psk.isSome) := by
  obtain ⟨⟨⟩, checked, started⟩ := bind_eq_ok.1 started
  constructor
  · intro required
    cases held : keys.s with
    | some pair => rfl
    | none =>
        rw [if_pos (by simp [held, required])] at started
        cases started
  · intro uses
    simp only [checkPsk, uses] at checked
    cases held : keys.psk with
    | some secret => rfl
    | none =>
        rw [held] at checked
        cases checked

end Session

namespace Protocol

variable {protocol : Protocol} {role : Role} {prologue : Bytes} {keys : Keys}
  {begun state : HandshakeState} {index : Nat}

theorem pattern_of_compile {pattern : Pattern} {suite : Suite}
    {attacker : AttackerModel}
    (compiled : compile pattern.toDraft suite attacker = .ok protocol) :
    protocol.pattern = pattern.normalize := by
  obtain ⟨plain, read, normal⟩ :=
    Draft.normalize_eq_ok.1 (normalize_of_compile compiled)
  obtain ⟨named, nonempty, -⟩ := Draft.validate_eq_ok.1 read
  have again := Draft.validate_eq_ok.2 ⟨named, nonempty, rfl⟩
  rw [← normal, Except.ok.inj (read.symm.trans again)]

theorem IsCompiled.holds_announced (compiled : protocol.IsCompiled)
    (started : HandshakeState.start protocol role prologue keys = .ok begun) :
    ∀ entry ∈ protocol.pattern.announced, begun.Holds (role.sees entry.1 entry.2) := by
  obtain ⟨values, known, rfl⟩ :=
    HandshakeState.of_start compiled.initialization_eq started
  intro entry announced
  have hashed : role.sees entry.1 entry.2 ∈ protocol.pattern.hashedAtStart role :=
    List.mem_cons_of_mem _ (List.mem_map_of_mem announced)
  have valued : Machine.value { state := .ofKeys protocol keys, frame := { prologue } }
      (role.sees entry.1 entry.2) ∈ values.map .ok := by
    rw [← known]
    exact List.mem_map_of_mem hashed
  obtain ⟨bytes, -, found⟩ := List.mem_map.1 valued
  exact Machine.holds_of_value found.symm

theorem requires_of_uses {step : Step} {operand : Operand}
    (found : protocol.steps[index]? = some step)
    (used : (step.programFor role).uses operand) : protocol.requires role operand := by
  apply List.any_eq_true.2
  exact ⟨_, List.mem_cons_of_mem _ (List.mem_map_of_mem (List.mem_of_getElem? found)),
    used⟩

/-- Only a pattern with a shared secret has programs that use one. -/
theorem IsCompiled.hasPsk_of_uses (compiled : protocol.IsCompiled) {step : Step}
    (found : protocol.steps[index]? = some step)
    (used : (step.programFor role).uses .psk) :
    protocol.hasPsk := by
  obtain ⟨message, there, rfl⟩ := compiled.exists_eq_ofMessage found
  rcases (Step.uses_programFor ..).1 used with ⟨⟨⟩⟩ | ⟨token, member, mentioned⟩
  have isPsk : token = .psk := Token.eq_psk_of_mentions mentioned
  subst isPsk
  rw [hasPsk, compiled.hasPsk_eq, List.any_eq_true]
  exact ⟨message, List.mem_of_getElem? there, List.contains_iff_mem.2 member⟩

/-- Every key that was announced or sent is there. -/
theorem Leads.knows (compiled : protocol.IsCompiled)
    (before : ∀ entry ∈ protocol.pattern.announced,
      begun.Holds (role.sees entry.1 entry.2))
    (leads : protocol.Leads role begun index state) :
    ∀ entry ∈ protocol.pattern.announced ++ introduced (protocol.pattern.spoken index),
      state.Holds (role.sees entry.1 entry.2) := by
  induction leads with
  | start =>
      intro entry known
      rcases List.mem_append.1 known with announced | none
      · exact before entry announced
      · cases none
  | acts _ found acts ih =>
      obtain ⟨message, there, rfl⟩ := compiled.exists_eq_ofMessage found
      obtain ⟨generate, payload, input, machine, ran, same⟩ := acts.ran
      rw [Pattern.spoken_succ there, introduced_append, ← List.append_assoc, ← same]
      intro entry known
      apply Machine.holds_of_run (Step.isOrdinary_programFor ..) ran
      rcases List.mem_append.1 known with old | new
      · exact .inl (ih entry old)
      · right
        rw [Step.uses_programFor]
        obtain ⟨_, spoken, sent⟩ := List.mem_filterMap.1 new
        obtain ⟨token, member, rfl⟩ := List.mem_map.1 spoken
        cases token with
        | key kind =>
            obtain rfl := Option.some.inj sent
            exact .inr ⟨_, member, List.mem_singleton_self _⟩
        | dh | psk => cases sent

end Protocol

namespace Run

variable {protocol : Protocol} {run : Run protocol} {message : Message}
  {begun state : HandshakeState} {error : ProtocolError}

/-- The static key and the shared secret are there in case the program uses them. -/
theorem IsDue.holds_given (isDue : run.IsDue message begun state)
    (compiled : protocol.IsCompiled) :
    ∀ operand,
      Program.uses ((Step.ofMessage protocol.suite protocol.attacker
        (.ofAnalysis protocol.analysis run.session.counter) message).programFor
          run.role) operand →
      operand = .own .static ∨ operand = .psk → state.Holds operand := by
  have found := compiled.getElem?_steps isDue.early isDue.there
  obtain ⟨static, secret⟩ := Session.given_of_start run.started
  intro operand used given
  apply isDue.leads.keys fun _ _ _ changes held => changes.holds held
  rw [HandshakeState.toKeys_of_start compiled.initialization_eq isDue.started]
  rcases given with rfl | rfl
  · exact static (Protocol.requires_of_uses found used)
  · have hasPsk := compiled.hasPsk_of_uses found used
    simpa [Keys.Holds, hasPsk] using secret hasPsk

/-- A session never misses its static key or the shared secret. -/
theorem missing_of_stops (compiled : protocol.IsCompiled)
    (stops : run.session.Stops error) (kind : error.kind = .missingKey) :
    ∃ operand, error = .notSet operand ∧ operand ≠ .own .static ∧ operand ≠ .psk := by
  obtain ⟨step, state, generate, payload, input, stopped, due, ran, rfl⟩ := stops
  obtain ⟨message, begun, rfl, isDue⟩ := isDue_of_due compiled due
  rw [run.role_session, run.protocol_session] at ran
  obtain ⟨operand, missing, used, lacks⟩ :=
    (isDue.wellFormed.machine rfl).missing_of_run
      (Step.isOrdinary_programFor ..) ran kind
  have given := isDue.holds_given compiled operand used
  refine ⟨operand, missing, ?_, ?_⟩
  · intro static
    exact lacks (given (.inl static))
  · intro secret
    exact lacks (given (.inr secret))

/-- A session misses no key at all if the pattern introduces its keys. -/
theorem kind_of_stops (compiled : protocol.IsCompiled)
    (introduces : protocol.pattern.Introduces (protocol.finalIndex + 1))
    (stops : run.session.Stops error) :
    error.kind ≠ .missingKey := by
  obtain ⟨step, state, generate, payload, input, stopped, due, ran, rfl⟩ := stops
  obtain ⟨message, begun, rfl, isDue⟩ := isDue_of_due compiled due
  rw [run.role_session, run.protocol_session] at ran
  have announced := compiled.holds_announced isDue.started
  have agree := introduces.agreeOn (Nat.lt_succ_of_le isDue.early) isDue.there
  have supplied :=
    Step.supplied_programFor protocol.suite protocol.attacker run.role _ agree
      (isDue.leads.knows compiled announced) (isDue.holds_given compiled) trivial
  exact (isDue.wellFormed.machine rfl).kind_of_supplied
    (Step.isOrdinary_programFor ..) supplied ran

theorem stops_of_missing (compiled : protocol.IsCompiled) {call : Session.Call}
    (failed : (run.session.call call).result = .error error)
    (kind : error.kind = .missingKey) :
    run.session.Stops error := by
  rcases (run.phase compiled).kind_or_stops
    (isCompiled_session compiled run) failed with other | stops
  · rw [kind] at other
    exact absurd other (by decide)
  · exact stops

/-- A session that starts has its keys.  Whatever happens to it, no call fails for want
of the own static key or of the shared secret.  If every agreement of the pattern is
between keys that come before it, announced or sent, then no call fails for want of any
key.  The standard patterns are of this kind. -/
theorem keys_stay_available {draft : Draft} {suite : Suite} {attacker : AttackerModel}
    {protocol : Protocol}
    (compiled : Protocol.compile draft suite attacker = .ok protocol)
    (run : Run protocol) :
    (∀ call error, (run.session.call call).result = .error error →
      error.kind = .missingKey →
      ∃ operand, error = .notSet operand ∧ operand ≠ .own .static ∧ operand ≠ .psk) ∧
    (protocol.pattern.Introduces (protocol.finalIndex + 1) →
      ∀ call error, (run.session.call call).result = .error error →
        error.kind ≠ .missingKey) ∧
    ∀ pattern ∈ Catalog.patterns,
      pattern.Introduces pattern.messages.length ∧
      (draft = pattern.toDraft →
        ∀ call error, (run.session.call call).result = .error error →
          error.kind ≠ .missingKey) := by
  obtain ⟨wellFormed, -, -⟩ := Protocol.isCompiled_of_compile compiled
  have neverMisses : protocol.pattern.Introduces (protocol.finalIndex + 1) →
      ∀ call error, (run.session.call call).result = .error error →
        error.kind ≠ .missingKey := by
    intro introduces call error failed kind
    exact kind_of_stops wellFormed introduces
      (stops_of_missing wellFormed failed kind) kind
  refine ⟨?_, neverMisses, ?_⟩
  · intro call error failed kind
    exact missing_of_stops wellFormed (stops_of_missing wellFormed failed kind) kind
  · intro pattern member
    have introduces := Catalog.introduces pattern member
    refine ⟨introduces, ?_⟩
    rintro rfl
    apply neverMisses
    rw [Protocol.pattern_of_compile compiled]
    exact introduces.normalize _

open Catalog in
/-- Against garbage, an initiator fails otherwise than for a key; but in a pattern that
agrees on a static key that nobody has sent, it does miss that key. -/
theorem keys_stay_available_of_XX :
    ∃ protocol bare, ∃ run : Run protocol, ∃ bareRun : Run bare, ∃ error,
      Protocol.compile (entry "XX" []
        [Catalog.send [e], Catalog.recv [e, ee, s, es], Catalog.send [s, se]]).toDraft
        {} .passive = .ok protocol ∧
      run.session.counter = 1 ∧
      (run.session.call (.recv (fun _ => default) [7])).result = .error error ∧
      error.kind ≠ .missingKey ∧
      Protocol.compile (entry "Bare" [] [Catalog.send [e, es]]).toDraft {} .passive =
        .ok bare ∧
      ¬ bare.pattern.Introduces (bare.finalIndex + 1) ∧
      (bareRun.session.call (.send (fun _ => default) [])).result =
        .error (.notSet (.peer .static)) := by
  obtain ⟨protocol, begun, compiled, started, sent, short⟩ :
      ∃ protocol begun,
        Protocol.compile
          (entry "XX" []
            [Catalog.send [e], Catalog.recv [e, ee, s, es],
              Catalog.send [s, se]]).toDraft {} .passive =
          .ok protocol ∧
        Session.start protocol .initiator []
          { s := some (.ofPrivateKey (default : PrivateKey .curve25519)) } = .ok begun ∧
        (begun.follow [.call (.send (fun _ => default) [])]).counter = 1 ∧
        ((begun.follow [.call (.send (fun _ => default) [])]).call
          (.recv (fun _ => default) [7])).result = .error (.tooShort 32 1) :=
    ⟨_, _, rfl, rfl, rfl, rfl⟩
  obtain ⟨bare, bareBegun, bareCompiled, bareStarted, bareLacks⟩ :
      ∃ bare begun,
        Protocol.compile (entry "Bare" [] [Catalog.send [e, es]]).toDraft {} .passive =
          .ok bare ∧
        Session.start bare .initiator [] {} = .ok begun ∧
        (begun.call (.send (fun _ => default) [])).result =
          .error (.notSet (.peer .static)) :=
    ⟨_, _, rfl, rfl, rfl⟩
  let run : Run protocol :=
    { role := .initiator, prologue := [], begun, started,
      history := [.call (.send (fun _ => default) [])]
      keys := { s := some (.ofPrivateKey (default : PrivateKey .curve25519)) } }
  let bareRun : Run bare :=
    { role := .initiator, prologue := [], keys := {}, begun := bareBegun,
      started := bareStarted, history := [] }
  obtain ⟨-, -, standard⟩ := keys_stay_available compiled run
  obtain ⟨-, neverMisses⟩ := standard _ (List.mem_of_getElem? (i := 11) rfl)
  obtain ⟨-, introduced, -⟩ := keys_stay_available bareCompiled bareRun
  refine ⟨protocol, bare, run, bareRun, _, compiled, sent, short,
    neverMisses rfl _ _ short, bareCompiled, ?_, bareLacks⟩
  intro introduces
  exact introduced introduces _ _ bareLacks rfl

end Run

end Noise
