import Noise.Proofs.Session.Phases

/-!
# Sessions fail closed under an active attacker

A call that is refused before anything has been tried leaves a session as it is.  A call
that is tried and fails ends a session under an active attacker: its secrets are gone,
and no call ever succeeds again.
-/

namespace Noise

theorem ProtocolError.kind_of_isOfStep {error : ProtocolError}
    (ofStep : error.isOfStep) :
    error.isOfProtocol ∧ error.kind ≠ .sequencing ∧ error.kind ≠ .tooLarge := by
  simp only [isOfStep] at ofStep
  simp only [isOfProtocol]
  cases kind : error.kind <;> simp_all

namespace Session

variable {session : Session} {call : Call} {error : ProtocolError}

/-- Errors of calls that are refused before anything has been tried: the call is out of
turn, or a message is too long, be it an incoming one or one of the transport phase. -/
def IsRefusal (session : Session) (call : Call) (error : ProtocolError) : Prop :=
  error.kind = .sequencing ∨
    error.kind = .tooLarge ∧
    ((∃ generate message, call = .recv generate message) ∨ session.isComplete)

theorem InTransport.isComplete (inside : session.InTransport) : session.isComplete := by
  obtain ⟨hash, hashed, -⟩ := inside.hashed
  simp [Session.isComplete, hashed]

theorem InHandshake.not_isComplete (inside : session.InHandshake) :
    ¬ session.isComplete := by
  simp [Session.isComplete, inside.unhashed]

/-- While a handshake goes on there is a step that is due. -/
theorem InHandshake.due_ne_none (inside : session.InHandshake)
    (compiled : session.protocol.IsCompiled) :
    session.due ≠ none := by
  obtain ⟨state, going, -⟩ := inside.going
  obtain ⟨message, there⟩ := compiled.exists_message inside.early
  have due :=
    due_eq_some.2 ⟨inside.early, compiled.getElem?_steps inside.early there, going⟩
  rw [due]
  exact Option.some_ne_none _

/-- The parts of a session belong together, so that a call is refused for its order
or its length only. -/
theorem Refuses.isRefusal (refuses : session.Refuses call error) (phase : session.Phase)
    (compiled : session.protocol.IsCompiled) :
    error.isOfProtocol ∧ session.IsRefusal call error := by
  cases refuses with
  | sequencing kind =>
      simp only [ProtocolError.isOfProtocol, kind]
      exact ⟨trivial, .inl kind⟩
  | longInput => exact ⟨rfl, .inr ⟨rfl, .inl ⟨_, _, rfl⟩⟩⟩
  | longText usable late =>
      exact ⟨rfl, .inr ⟨rfl, .inr (phase.inTransport_of_late usable late).isComplete⟩⟩
  | corrupt usable early nothing =>
      exact absurd nothing ((phase.inHandshake usable early).due_ne_none compiled)
  | rekey failed =>
      rw [(phase.wellFormed _).rekey_eq] at failed
      cases failed

theorem Fails.isOfStep_or_tooLarge (fails : session.Fails call error)
    (phase : session.Phase) :
    error.isOfStep ∨
      error.kind = .tooLarge ∧ session.counter ≤ session.protocol.finalIndex ∧
        ∃ generate plaintext, call = .send generate plaintext := by
  cases fails with
  | write going _ failed =>
      obtain ⟨-, -, held⟩ := due_eq_some.1 going
      exact .inl ((phase.wellFormed_handshake _ held).isOfStep_of_write failed)
  | read going _ failed =>
      obtain ⟨-, -, held⟩ := due_eq_some.1 going
      exact .inl ((phase.wellFormed_handshake _ held).isOfStep_of_read failed)
  | longMessage going => exact .inr ⟨rfl, (due_eq_some.1 going).1, _, _, rfl⟩
  | encrypt failed =>
      rw [(phase.wellFormed _).encrypt_eq_error failed]
      exact .inl rfl
  | decrypt failed =>
      rcases (phase.wellFormed _).decrypt_eq_error failed with exhausted | mismatch
      · rw [exhausted]
        exact .inl rfl
      · rw [mismatch]
        exact .inl rfl

theorem Fails.not_isRefusal (fails : session.Fails call error) (phase : session.Phase)
    (usable : session.failed = false) :
    error.isOfProtocol ∧ ¬ session.IsRefusal call error := by
  rcases fails.isOfStep_or_tooLarge phase with
    ofStep | ⟨kind, early, generate, plaintext, rfl⟩
  · obtain ⟨ofProtocol, inTurn, fits⟩ := ProtocolError.kind_of_isOfStep ofStep
    refine ⟨ofProtocol, ?_⟩
    rintro (outOfTurn | ⟨tooLarge, -⟩)
    · exact inTurn outOfTurn
    · exact fits tooLarge
  · constructor
    · simp only [ProtocolError.isOfProtocol, kind]
    · rintro (outOfTurn | ⟨-, ⟨_, _, received⟩ | complete⟩)
      · cases kind.symm.trans outOfTurn
      · cases received
      · exact (phase.inHandshake usable early).not_isComplete complete

/-- A call that fails is refused and leaves the session as it is, or has been
tried and ends it. -/
theorem session_of_error (phase : session.Phase)
    (compiled : session.protocol.IsCompiled)
    (active : session.protocol.attacker = .active)
    (failed : (session.call call).result = .error error) :
    error.isOfProtocol ∧
      (session.IsRefusal call error ∧ (session.call call).session = session ∨
        ¬ session.IsRefusal call error ∧
        (session.call call).session = session.clear) := by
  have answers := answers_call session call
  generalize session.call call = reply at answers failed
  cases answers with
  | refused refuses =>
      obtain rfl := Except.error.inj failed
      obtain ⟨ofProtocol, refusal⟩ := refuses.isRefusal phase compiled
      exact ⟨ofProtocol, .inl ⟨refusal, rfl⟩⟩
  | failed usable fails =>
      obtain rfl := Except.error.inj failed
      obtain ⟨ofProtocol, noRefusal⟩ := fails.not_isRefusal phase usable
      exact ⟨ofProtocol, .inr ⟨noRefusal, if_pos ⟨active, ofProtocol⟩⟩⟩
  | exchanged | transported | rekeyed => cases failed

theorem Moves.failed_of_failed {passage : Option Passage} {after : Session}
    (moves : session.Moves passage after) (failed : session.failed = true) :
    after.failed = true := by
  cases moves with
  | stays => exact failed
  | cleared => rfl
  | exchanged usable | transported usable | rekeyed usable =>
      cases usable.symm.trans failed

/-- Failure is final. -/
theorem failed_follow (failed : session.failed = true) (history : List Event) :
    (session.follow history).failed = true := by
  induction history generalizing session with
  | nil => exact failed
  | cons event rest ih => exact ih ((moves_next session event).failed_of_failed failed)

theorem call_of_failed (failed : session.failed = true) (call : Call) :
    (session.call call).result = .error .unusable := by
  cases call with
  | send => simp [Session.call, send, failed, refuse]
  | recv => simp [Session.call, recv, failed, refuse]
  | rekey =>
      rw [Session.call, rekey, failed]
      rfl

end Session

namespace Run

/-- Sessions fail closed under an active attacker.  After any history, a call fails with
an error of the protocol only.  If it is refused, the session is as it was; in every
other case the session has failed and has no secret left.  A failed session stays so:
whatever happens to it, it holds no secret, and every call is out of turn. -/
theorem active_sessions_fail_closed {draft : Draft} {suite : Suite}
    {protocol : Protocol}
    (compiled : Protocol.compile draft suite .active = .ok protocol)
    (run : Run protocol) :
    (∀ call error, (run.session.call call).result = .error error →
      error.isOfProtocol ∧
      (run.session.IsRefusal call error →
        (run.session.call call).session = run.session) ∧
      (¬ run.session.IsRefusal call error →
        (run.session.call call).session.failed = true ∧
        (run.session.call call).session.handshake = none ∧
        (run.session.call call).session.cipherA.key = none ∧
        (run.session.call call).session.cipherB.key = none)) ∧
    (run.session.failed = true → ∀ later,
      (run.session.follow later).failed = true ∧
      (run.session.follow later).handshake = none ∧
      (run.session.follow later).cipherA.key = none ∧
      (run.session.follow later).cipherB.key = none ∧
      ∀ call, ∃ error, ((run.session.follow later).call call).result = .error error ∧
        error.kind = .sequencing) := by
  obtain ⟨wellFormed, -, attacker⟩ := Protocol.isCompiled_of_compile compiled
  have phase := run.phase wellFormed
  rw [← run.protocol_session] at wellFormed attacker
  constructor
  · intro call error failed
    obtain ⟨ofProtocol, cases⟩ :=
      Session.session_of_error phase wellFormed attacker failed
    refine ⟨ofProtocol, ?_, ?_⟩
    · intro refusal
      rcases cases with ⟨-, same⟩ | ⟨noRefusal, -⟩
      · exact same
      · exact absurd refusal noRefusal
    · intro noRefusal
      rcases cases with ⟨refusal, -⟩ | ⟨-, cleared⟩
      · exact absurd refusal noRefusal
      · rw [cleared]
        exact ⟨rfl, rfl, rfl, rfl⟩
  · intro failed later
    have stillFailed := Session.failed_follow failed later
    have gone := (phase.follow wellFormed later).abandoned_of_failed stillFailed
    have emptyA : (run.session.follow later).cipherA = {} := gone.empty .a
    have emptyB : (run.session.follow later).cipherB = {} := gone.empty .b
    rw [emptyA, emptyB]
    refine ⟨stillFailed, gone.ended, rfl, rfl, ?_⟩
    intro call
    exact ⟨.unusable, Session.call_of_failed stillFailed call, rfl⟩

open Catalog in
/-- A responder refuses to send first, and goes on; a message that ends in the middle of
a key ends it, and after that the full message comes too late. -/
theorem active_sessions_fail_closed_of_NN :
    ∃ protocol, ∃ run failed : Run protocol,
      Protocol.compile (entry "NN" [] [Catalog.send [e], Catalog.recv [e, ee]]).toDraft
        {} .active = .ok protocol ∧
      (run.session.call (.send (fun _ => default) [])).result =
        .error (.notYourTurn .responder .send 0) ∧
      (run.session.call (.send (fun _ => default) [])).session = run.session ∧
      (run.session.call (.recv (fun _ => default) [7])).result =
        .error (.tooShort 32 1) ∧
      (run.session.call (.recv (fun _ => default) [7])).session.failed = true ∧
      (run.session.call (.recv (fun _ => default) [7])).session.handshake = none ∧
      failed.session = (run.session.call (.recv (fun _ => default) [7])).session ∧
      ∃ error,
        (failed.session.call (.recv (fun _ => default) (List.replicate 40 7))).result =
          .error error ∧
        error.kind = .sequencing := by
  obtain ⟨protocol, begun, compiled, started, early, short⟩ :
      ∃ protocol begun,
        Protocol.compile (entry "NN" []
          [Catalog.send [e], Catalog.recv [e, ee]]).toDraft {} .active = .ok protocol ∧
        Session.start protocol .responder [] {} = .ok begun ∧
        (begun.call (.send (fun _ => default) [])).result =
          .error (.notYourTurn .responder .send 0) ∧
        (begun.call (.recv (fun _ => default) [7])).result = .error (.tooShort 32 1) :=
    ⟨_, _, rfl, rfl, rfl, rfl⟩
  let run : Run protocol :=
    { role := .responder, prologue := [], keys := {}, begun, started, history := [] }
  let failed : Run protocol :=
    { run with history := [.call (.recv (fun _ => default) [7])] }
  obtain ⟨closes, -⟩ := active_sessions_fail_closed compiled run
  obtain ⟨-, stays, -⟩ := closes (.send (fun _ => default) []) _ early
  obtain ⟨-, -, ends⟩ := closes (.recv (fun _ => default) [7]) _ short
  obtain ⟨gone, ended, -⟩ := ends (by simp [Session.IsRefusal, ProtocolError.kind])
  obtain ⟨-, absorbs⟩ := active_sessions_fail_closed compiled failed
  obtain ⟨-, -, -, -, refuses⟩ := absorbs gone []
  exact ⟨protocol, run, failed, compiled, early, stays (.inl rfl), short, gone, ended,
    rfl, refuses _⟩

end Run

end Noise
