import Noise.Proofs.Handshake.WellFormed

/-!
# Programs that find their keys

A program never stops for a missing key if every key that it asks for is there at the
start or is made or read by an earlier instruction.  For the programs of a message this
is a matter of the order of the tokens: both keys of an agreement have been sent, or
were known before the handshake.
-/

namespace Noise

/-! ## Programs -/

/-- Whether every operand that an instruction asks for is held at the start or given by
an earlier instruction. -/
def Program.Supplied : (held : Operand → Prop) → Program → Prop
  | _, [] => True
  | held, instruction :: rest =>
      (∀ operand ∈ instruction.needs, held operand) ∧
        Supplied (fun operand => held operand ∨ operand ∈ instruction.gives) rest

theorem Program.Supplied.mono {held more : Operand → Prop} {program : Program}
    (supplied : program.Supplied held) (all : ∀ operand, held operand → more operand) :
    program.Supplied more := by
  induction program generalizing held more with
  | nil => trivial
  | cons instruction rest ih =>
      obtain ⟨needs, later⟩ := supplied
      constructor
      · intro operand needed
        exact all operand (needs operand needed)
      · apply ih later
        intro operand held
        exact held.imp_left (all operand)

theorem Program.supplied_append {held : Operand → Prop} {first second : Program} :
    Program.Supplied held (first ++ second) ↔
      first.Supplied held ∧
        second.Supplied fun operand =>
          held operand ∨ operand ∈ first.flatMap Instruction.gives := by
  induction first generalizing held with
  | nil => simp [Supplied]
  | cons instruction rest ih => simp [Supplied, ih, and_assoc, or_assoc]

/-- A supplied program does not stop for a missing key. -/
theorem Machine.WellFormed.kind_of_supplied {suite : Suite} {generate : KeyGenerator}
    {machine : Machine} {program : Program} {stopped : Stopped}
    (wellFormed : machine.WellFormed suite) (ordinary : program.isOrdinary)
    (supplied : program.Supplied machine.state.Holds)
    (failed : machine.run suite generate program = .error stopped) :
    stopped.error.kind ≠ .missingKey := by
  induction program generalizing machine with
  | nil => cases failed
  | cons instruction rest ih =>
      obtain ⟨first, later⟩ := Bool.and_eq_true_iff.1 ordinary
      obtain ⟨needs, goesOn⟩ := supplied
      rw [run_cons] at failed
      rcases bind_eq_error.1 failed with failed | ⟨middle, executed, failed⟩
      · intro kind
        obtain ⟨operand, needed, -, lacks⟩ :=
          (wellFormed.faults_of_exec failed).missing_of_kind first kind
        exact lacks (needs operand needed)
      · have changes := changes_of_exec executed
        apply ih (wellFormed.exec executed) later (goesOn.mono ?_) failed
        rintro operand (held | given)
        · exact changes.holds held
        · exact changes.gives operand given

/-! ## Tokens -/

/-- The keys that tokens send, each with the party whose key it is. -/
def introduced (spoken : List (Role × Token)) : List (Role × KeyKind) :=
  spoken.filterMap fun entry => entry.2.keyKind?.map (entry.1, ·)

/-- Whether a token, if it is an agreement, is one between known keys. -/
def Token.agreesOn (known : List (Role × KeyKind)) : Token → Bool
  | .dh initiator responder => known.contains (.initiator, initiator) &&
      known.contains (.responder, responder)
  | .key _ | .psk => true

/-- Whether every agreement is between keys that are known at the start or have
been sent before it. -/
def agreeOn : (known : List (Role × KeyKind)) → (spoken : List (Role × Token)) → Bool
  | _, [] => true
  | known, entry :: rest => entry.2.agreesOn known &&
      agreeOn (known ++ introduced [entry]) rest

theorem introduced_append (first second : List (Role × Token)) :
    introduced (first ++ second) = introduced first ++ introduced second :=
  List.filterMap_append

theorem introduced_cons (entry : Role × Token) (rest : List (Role × Token)) :
    introduced (entry :: rest) = introduced [entry] ++ introduced rest :=
  introduced_append [entry] rest

theorem agreeOn_append (known : List (Role × KeyKind))
    (first second : List (Role × Token)) :
    agreeOn known (first ++ second) =
      (agreeOn known first && agreeOn (known ++ introduced first) second) := by
  induction first generalizing known with
  | nil => simp [agreeOn, introduced]
  | cons entry rest ih =>
      rw [List.cons_append, agreeOn, agreeOn, ih, Bool.and_assoc,
        introduced_cons entry rest, List.append_assoc]

theorem agreeOn_iff {known : List (Role × KeyKind)} {spoken : List (Role × Token)} :
    agreeOn known spoken ↔ ∀ earlier sender initiator responder later,
      spoken = earlier ++ (sender, .dh initiator responder) :: later →
      (.initiator, initiator) ∈ known ++ introduced earlier ∧
        (.responder, responder) ∈ known ++ introduced earlier := by
  constructor
  · rintro agree earlier sender initiator responder later rfl
    rw [agreeOn_append, agreeOn, Bool.and_eq_true, Bool.and_eq_true] at agree
    simpa [Token.agreesOn] using agree.2.1
  · intro agree
    induction spoken generalizing known with
    | nil => rfl
    | cons entry rest ih =>
        rw [agreeOn, Bool.and_eq_true]
        constructor
        · obtain ⟨sender, token⟩ := entry
          cases token with
          | key | psk => rfl
          | dh initiator responder =>
              have both := agree [] sender initiator responder rest rfl
              simpa [Token.agreesOn, introduced] using both
        · apply ih
          rintro earlier sender initiator responder later rfl
          rw [List.append_assoc, ← introduced_cons]
          exact agree (entry :: earlier) sender initiator responder later rfl

section Compiled

variable (suite : Suite) (attacker : AttackerModel) (hasPsk keyed : Bool) (role : Role)

variable {held : Operand → Prop} {known : List (Role × KeyKind)} {tokens : List Token}

theorem Token.supplied_write {token : Token}
    (asked : token ≠ .key .ephemeral → ∀ operand ∈ token.mentions role role,
      held operand) :
    Program.Supplied held (token.write hasPsk role) := by
  cases token with
  | key kind =>
      cases kind with
      | ephemeral =>
          cases hasPsk <;>
            simp [write, Program.Supplied, Instruction.needs, Instruction.gives,
              Source.operands]
      | static => exact ⟨by simpa [mentions, Instruction.needs] using asked, trivial⟩
  | dh initiator responder =>
      refine ⟨?_, trivial⟩
      cases role <;>
        simpa [mentions, Role.sees, Instruction.needs, Source.agreement,
          Source.operands, and_comm] using asked
  | psk => exact ⟨by simpa [mentions, Instruction.needs] using asked, trivial⟩

theorem Token.supplied_read {token : Token}
    (asked : token.keyKind? = none → ∀ operand ∈ token.mentions role.other role,
      held operand) :
    Program.Supplied held (token.read suite attacker hasPsk keyed role) := by
  cases token with
  | key kind =>
      cases kind with
      | ephemeral =>
          cases hasPsk <;> cases attacker <;>
            simp [read, check, Program.Supplied, Instruction.needs, Instruction.gives,
              Instruction.learns?, Source.operands]
      | static =>
          cases attacker <;>
            simp [read, check, Program.Supplied, Instruction.needs, Instruction.gives,
              Instruction.learns?]
  | dh initiator responder =>
      refine ⟨?_, trivial⟩
      cases role <;>
        simpa [mentions, keyKind?, Role.sees, Instruction.needs, Source.agreement,
          Source.operands, and_comm] using asked
  | psk => exact ⟨by simpa [mentions, keyKind?, Instruction.needs] using asked, trivial⟩

/-- A token that is no key asks for known keys and for what is given from the start. -/
theorem Token.held_of_agreesOn {sender : Role} {token : Token}
    (agrees : token.agreesOn known)
    (knows : ∀ entry ∈ known, held (role.sees entry.1 entry.2))
    (given : ∀ operand ∈ token.mentions sender role, operand = .own .static ∨
      operand = .psk → held operand) (noKey :
        token.keyKind? = none) : ∀ operand ∈ token.mentions sender role,
          held operand := by
  intro operand mentioned
  cases token with
  | key kind => cases noKey
  | dh initiator responder =>
      obtain ⟨first, second⟩ := Bool.and_eq_true_iff.1 agrees
      rcases List.mem_cons.1 mentioned with rfl | mentioned
      · exact knows _ (List.contains_iff_mem.1 first)
      · obtain rfl := List.mem_singleton.1 mentioned
        exact knows _ (List.contains_iff_mem.1 second)
  | psk => exact given operand mentioned (.inr (List.mem_singleton.1 mentioned))

theorem supplied_writeTokens (agree : agreeOn known (tokens.map (role, ·)))
    (knows : ∀ entry ∈ known, held (role.sees entry.1 entry.2))
    (given : ∀ token ∈ tokens, ∀ operand ∈ token.mentions role role,
      operand = .own .static ∨ operand = .psk → held operand) :
    Program.Supplied held (tokens.flatMap (Token.write hasPsk role)) := by
  induction tokens generalizing known held with
  | nil => trivial
  | cons token rest ih =>
      obtain ⟨agrees, agree⟩ := Bool.and_eq_true_iff.1 agree
      obtain ⟨givenFirst, givenLater⟩ := List.forall_mem_cons.1 given
      rw [List.flatMap_cons, Program.supplied_append]
      constructor
      · apply Token.supplied_write
        intro drawn
        cases token with
        | key kind =>
            cases kind with
            | ephemeral => exact absurd rfl drawn
            | static => simpa [Token.mentions] using givenFirst
        | dh | psk => exact Token.held_of_agreesOn role agrees knows givenFirst rfl
      · apply ih agree
        · intro entry member
          rcases List.mem_append.1 member with old | new
          · exact .inl (knows entry old)
          · cases token with
            | key kind =>
                obtain rfl := List.mem_singleton.1 new
                cases kind with
                | ephemeral => exact .inr (by simp [Token.write, Instruction.gives])
                | static =>
                    exact .inl
                      (givenFirst _ (List.mem_singleton_self _)
                        (.inl (Role.sees_self role _)))
            | dh | psk => cases new
        · intro token member operand mentioned start
          exact .inl (givenLater token member operand mentioned start)

theorem supplied_readTokens (agree : agreeOn known (tokens.map (role.other, ·)))
    (knows : ∀ entry ∈ known, held (role.sees entry.1 entry.2))
    (given : ∀ token ∈ tokens, ∀ operand ∈ token.mentions role.other role,
      operand = .own .static ∨ operand = .psk → held operand) :
    Program.Supplied held (readTokenList suite attacker hasPsk role keyed tokens) := by
  induction tokens generalizing known held keyed with
  | nil => trivial
  | cons token rest ih =>
      obtain ⟨agrees, agree⟩ := Bool.and_eq_true_iff.1 agree
      obtain ⟨givenFirst, givenLater⟩ := List.forall_mem_cons.1 given
      rw [readTokenList, Program.supplied_append]
      constructor
      · apply Token.supplied_read
        exact Token.held_of_agreesOn role agrees knows givenFirst
      · apply ih _ agree
        · intro entry member
          rcases List.mem_append.1 member with old | new
          · exact .inl (knows entry old)
          · cases token with
            | key kind =>
                obtain rfl := List.mem_singleton.1 new
                refine .inr ?_
                cases kind <;> simp [Token.read, Instruction.gives, Instruction.learns?]
            | dh | psk => cases new
        · intro token member operand mentioned start
          exact .inl (givenLater token member operand mentioned start)

/-- The programs of a message find their keys if its agreements are between known keys,
and if the own static key and the shared secret are there in case they are used. -/
theorem Step.supplied_programFor (place : Place) {message : Message}
    (agree : agreeOn known (message.tokens.map (message.direction.sender, ·)))
    (knows : ∀ entry ∈ known, held (role.sees entry.1 entry.2))
    (given : ∀ operand,
      Program.uses ((ofMessage suite attacker place message).programFor role) operand →
      operand = .own .static ∨ operand = .psk → held operand)
    (payload : held .payload) :
    Program.Supplied held
      ((ofMessage suite attacker place message).programFor role) := by
  have givenTokens : ∀ token ∈ message.tokens,
      ∀ operand ∈ token.mentions message.direction.sender role,
      operand = .own .static ∨ operand = .psk → held operand := by
    intro token member operand mentioned
    apply given
    rw [uses_programFor]
    exact .inr ⟨token, member, mentioned⟩
  rcases Role.eq_or_eq_other message.direction.sender role with own | other
  · rw [own] at agree givenTokens
    rw [programFor_sender suite attacker place own, Program.supplied_append]
    refine ⟨supplied_writeTokens _ role agree knows givenTokens, ?_, ?_⟩
    · simpa [Instruction.needs] using .inl payload
    · cases place.isFinal <;> simp [Program.Supplied, Instruction.needs]
  · rw [other] at agree givenTokens
    rw [programFor_receiver suite attacker place other, Program.supplied_append]
    refine ⟨supplied_readTokens suite attacker _ _ role agree knows givenTokens, ?_, ?_⟩
    · simp [Instruction.needs]
    · cases place.isFinal <;> simp [Program.Supplied, Instruction.needs]

end Compiled

end Noise
