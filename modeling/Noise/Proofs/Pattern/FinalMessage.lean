import Noise.Proofs.Handshake.Compilation

/-!
# Where the key exchange ends

The final message is found by a rule about three neighbours.  Seen from the whole
sequence, it ends the first maximal run of messages with tokens that starts with the
first message or has at least two messages.  Only the messages up to it are compiled.
That leaves no token out just when no message with tokens comes after such a run; an
empty message in the midst of a key exchange ends it early.
-/

namespace Noise.Analysis

section Runs

variable {filled : Nat → Bool} {start last index bound : Nat}

/-- A run of places that are filled and that do not belong to a longer run. -/
structure MaximalRun (filled : Nat → Bool) (start last : Nat) : Prop where
  ordered : start ≤ last
  inside : ∀ index, start ≤ index → index ≤ last → filled index = true
  begins : start = 0 ∨ filled (start - 1) = false
  ends : filled (last + 1) = false

/-- A maximal run that starts at the very beginning or has at least two places. -/
structure Exchange (filled : Nat → Bool) (start last : Nat) :
    Prop extends MaximalRun filled start last where
  opens : start = 0 ∨ start < last

structure FirstExchange (filled : Nat → Bool) (start last : Nat) : Prop
    extends Exchange filled start last where
  first : ∀ {otherStart otherLast : Nat}, Exchange filled otherStart otherLast →
    start ≤ otherStart

theorem exists_start (there : filled last = true) :
    ∃ start, start ≤ last ∧
      (∀ index, start ≤ index → index ≤ last → filled index = true) ∧
      (start = 0 ∨ filled (start - 1) = false) := by
  induction last with
  | zero =>
      refine ⟨0, Nat.le_refl 0, ?_, .inl rfl⟩
      intro index _ low
      rw [Nat.le_zero.1 low]
      exact there
  | succ last ih =>
      cases before : filled last with
      | false =>
          refine ⟨last + 1, Nat.le_refl _, ?_, .inr before⟩
          intro index high low
          rw [Nat.le_antisymm low high]
          exact there
      | true =>
          obtain ⟨start, ordered, inside, begins⟩ := ih before
          refine ⟨start, Nat.le_succ_of_le ordered, ?_, begins⟩
          intro index high low
          rcases Nat.lt_or_eq_of_le low with earlier | rfl
          · exact inside index high (Nat.le_of_lt_succ earlier)
          · exact there

theorem exists_last (bounded : ∀ index, filled index = true → index < bound)
    (there : filled index = true) :
    ∃ last, index ≤ last ∧
      (∀ place, index ≤ place → place ≤ last → filled place = true) ∧
      filled (last + 1) = false := by
  -- The induction is on how far the bound is away.
  induction distance : bound - index generalizing index with
  | zero =>
      exact absurd (bounded index there) (Nat.not_lt.2 (Nat.le_of_sub_eq_zero distance))
  | succ distance ih =>
      cases after : filled (index + 1) with
      | false =>
          refine ⟨index, Nat.le_refl index, ?_, after⟩
          intro place high low
          rw [Nat.le_antisymm low high]
          exact there
      | true =>
          obtain ⟨last, ordered, inside, ends⟩ := ih after (by omega)
          refine ⟨last, Nat.le_of_succ_le ordered, ?_, ends⟩
          intro place high low
          rcases Nat.lt_or_eq_of_le high with later | rfl
          · exact inside place later low
          · exact there

/-- Two filled places next to each other, or a filled beginning, belong to a
run of that kind. -/
theorem exists_exchange (bounded : ∀ index, filled index = true → index < bound) :
    (∃ start last, Exchange filled start last) ↔
      filled 0 = true ∨ ∃ index, filled index = true ∧ filled (index + 1) = true := by
  constructor
  · rintro ⟨start, last, run⟩
    rcases run.opens with rfl | several
    · exact .inl (run.inside 0 (Nat.le_refl 0) run.ordered)
    · exact .inr ⟨start, run.inside start (Nat.le_refl start) run.ordered,
        run.inside (start + 1) (Nat.le_succ start) several⟩
  · rintro (there | ⟨index, there, next⟩)
    · obtain ⟨last, ordered, inside, ends⟩ := exists_last bounded there
      exact ⟨0, last, ⟨ordered, inside, .inl rfl, ends⟩, .inl rfl⟩
    · obtain ⟨start, before, inside, begins⟩ := exists_start there
      obtain ⟨last, ordered, further, ends⟩ := exists_last bounded next
      refine ⟨start, last, ⟨by omega, ?_, begins, ends⟩, .inr (by omega)⟩
      intro place high low
      rcases Nat.lt_or_ge index place with later | earlier
      · exact further place later low
      · exact inside place high earlier

/-- Of two maximal runs, the one that starts first ends first. -/
theorem MaximalRun.last_le {otherStart otherLast : Nat}
    (run : MaximalRun filled start last)
    (other : MaximalRun filled otherStart otherLast) (before : start ≤ otherStart) :
    last ≤ otherLast := by
  rcases Nat.lt_or_ge otherLast last with shorter | longer
  · have ordered := other.ordered
    have there := run.inside (otherLast + 1) (by omega) shorter
    rw [other.ends] at there
    cases there
  · exact longer

theorem MaximalRun.start_le {otherStart otherLast : Nat}
    (run : MaximalRun filled start last)
    (other : MaximalRun filled otherStart otherLast) (before : last ≤ otherLast) :
    start ≤ otherStart := by
  rcases Nat.lt_or_ge otherStart start with earlier | later
  · have ordered := run.ordered
    have there := other.inside (start - 1) (by omega) (by omega)
    rcases run.begins with rfl | gap
    · cases earlier
    · rw [gap] at there
      cases there
  · exact later

/-- Nothing is filled after the first run just when nothing is filled after
any such run. -/
theorem FirstExchange.nothing_after_iff (run : FirstExchange filled start last) :
    (∀ index, last < index → filled index = false) ↔
      ∀ otherStart otherLast, Exchange filled otherStart otherLast →
        ∀ index, otherLast < index → filled index = false := by
  constructor
  · intro nothing otherStart otherLast other index later
    have ordered := run.last_le other.toMaximalRun (run.first other)
    exact nothing index (Nat.lt_of_le_of_lt ordered later)
  · intro nothing
    exact nothing start last run.toExchange

end Runs

variable {δ τ : Type} {messages : List (Row δ τ)} {index last : Nat}

theorem lt_of_isFilled (filled : isFilled messages index = true) :
    index < messages.length := by
  cases found : messages[index]? with
  | none => simp [isFilled, found] at filled
  | some row => exact (List.getElem?_eq_some_iff.1 found).1

/-- The rule about three neighbours tells the ends of the runs in which keys
can be exchanged. -/
theorem isFinal_iff :
    isFinal messages last = true ↔
      ∃ start, Exchange (isFilled messages) start last := by
  simp only [isFinal, Bool.and_eq_true, Bool.or_eq_true, beq_iff_eq, Bool.not_eq_true']
  constructor
  · rintro ⟨⟨there, before⟩, ends⟩
    obtain ⟨start, ordered, inside, begins⟩ := exists_start there
    refine ⟨start, ⟨ordered, inside, begins, ends⟩, ?_⟩
    rcases before with rfl | previous
    · exact .inl (Nat.le_zero.1 ordered)
    · rcases begins with atStart | gap
      · exact .inl atStart
      · refine .inr (Nat.lt_of_le_of_ne ordered ?_)
        rintro rfl
        cases gap.symm.trans previous
  · rintro ⟨start, run⟩
    refine ⟨⟨run.inside last run.ordered (Nat.le_refl last), ?_⟩, run.ends⟩
    rcases Nat.eq_zero_or_pos last with atStart | later
    · exact .inl atStart
    · have opens := run.opens
      exact .inr (run.inside (last - 1) (by omega) (by omega))

/-- The final message ends the first run in which keys can be exchanged. -/
theorem finalIndex_eq_some [Recognizable τ] :
    (ofMessages messages).finalIndex = some last ↔
      ∃ start, FirstExchange (isFilled messages) start last := by
  simp only [ofMessages, List.find?_range_eq_some, isFinal_iff, Bool.not_eq_true']
  constructor
  · rintro ⟨⟨start, run⟩, -, nothingBefore⟩
    refine ⟨start, run, ?_⟩
    intro otherStart otherLast other
    apply run.start_le other.toMaximalRun
    rcases Nat.lt_or_ge otherLast last with earlier | later
    · have absent := nothingBefore otherLast earlier
      rw [isFinal_iff.2 ⟨otherStart, other⟩] at absent
      cases absent
    · exact later
  · rintro ⟨start, run⟩
    refine ⟨⟨start, run.toExchange⟩, ?_, ?_⟩
    · exact List.mem_range.2
        (lt_of_isFilled (run.inside last run.ordered (Nat.le_refl last)))
    · intro earlier before
      cases found : isFinal messages earlier with
      | false => rfl
      | true =>
          obtain ⟨otherStart, other⟩ := isFinal_iff.1 found
          exact absurd (run.last_le other.toMaximalRun (run.first other))
            (Nat.not_le.2 before)

/-- There is a final message if the first message has tokens, or if two messages next
to each other have. -/
theorem exists_finalIndex [Recognizable τ] :
    (∃ last, (ofMessages messages).finalIndex = some last) ↔
      isFilled messages 0 = true ∨
        ∃ index, isFilled messages index = true ∧
          isFilled messages (index + 1) = true := by
  rw [← exists_exchange fun _ => lt_of_isFilled]
  constructor
  · rintro ⟨last, final⟩
    obtain ⟨start, run⟩ := finalIndex_eq_some.1 final
    exact ⟨start, last, run.toExchange⟩
  · rintro ⟨start, last, run⟩
    have ends := isFinal_iff.2 ⟨start, run⟩
    have there := lt_of_isFilled (run.inside last run.ordered (Nat.le_refl last))
    cases found : (List.range messages.length).find? (isFinal messages) with
    | none =>
        exact absurd ends (List.find?_eq_none.1 found last (List.mem_range.2 there))
    | some final => exact ⟨final, found⟩

theorem isFilled_eq_false :
    isFilled messages index = false ↔ ∀ row, messages[index]? = some row →
      row.tokens = [] := by
  cases found : messages[index]? <;> simp [isFilled, found]

/-- To cut messages off loses no token just when those messages have none. -/
theorem tokens_take_iff (count : Nat) :
    (messages.take count).flatMap (·.tokens) = messages.flatMap (·.tokens) ↔
      ∀ index, count ≤ index → isFilled messages index = false := by
  have whole : messages.flatMap (·.tokens) =
      (messages.take count).flatMap (·.tokens) ++
        (messages.drop count).flatMap (·.tokens) := by
    rw [← List.flatMap_append, List.take_append_drop]
  rw [whole, List.self_eq_append_right, List.flatMap_eq_nil_iff]
  constructor
  · intro empty index after
    rw [isFilled_eq_false]
    intro row there
    apply empty
    rw [← Nat.add_sub_of_le after, ← List.getElem?_drop] at there
    exact List.mem_of_getElem? there
  · intro empty row dropped
    obtain ⟨index, there⟩ := List.mem_iff_getElem?.1 dropped
    rw [List.getElem?_drop] at there
    exact isFilled_eq_false.1
      (empty (count + index) (Nat.le_add_right count index)) row there

end Noise.Analysis

namespace Noise.Protocol

/-- When compilation leaves no token out.  The messages after the final one have no
tokens, and the messages that are compiled have all tokens of the pattern, just when no
message with tokens comes after a maximal run that starts with the first message or has
at least two messages. -/
theorem all_tokens_compiled_iff {draft : Draft} {suite : Suite}
    {attacker : AttackerModel} {protocol : Protocol}
    (compiled : compile draft suite attacker = .ok protocol) :
    let messages := protocol.pattern.messages
    let settled := ∀ start last,
      Analysis.Exchange (Analysis.isFilled messages) start last →
      ∀ index, last < index → Analysis.isFilled messages index = false
    ((∀ index message, protocol.finalIndex < index → messages[index]? = some message →
      message.tokens = []) ↔ settled) ∧
    ((messages.take (protocol.finalIndex + 1)).flatMap (·.tokens) =
      messages.flatMap (·.tokens) ↔
      settled) := by
  obtain ⟨wellFormed, -, -⟩ := isCompiled_of_compile compiled
  have final := wellFormed.finalIndex_eq
  rw [wellFormed.analysis_eq, Analysis.finalIndex_eq_some] at final
  obtain ⟨start, run⟩ := final
  refine ⟨?_, (Analysis.tokens_take_iff _).trans run.nothing_after_iff⟩
  rw [← run.nothing_after_iff]
  constructor
  · intro empty index later
    rw [Analysis.isFilled_eq_false]
    intro message there
    exact empty index message later there
  · intro empty index message later there
    exact Analysis.isFilled_eq_false.1 (empty index later) message there

open Catalog in
/-- After a key exchange without a gap, empty messages may follow. -/
theorem all_tokens_compiled_of_XX :
    ∃ protocol,
      compile (entry "XX" []
        [send [e], recv [e, ee, s, es], send [s, se], recv [], send []]).toDraft
        {} .passive = .ok protocol ∧
      (∀ index message, protocol.finalIndex < index →
        protocol.pattern.messages[index]? = some message →
        message.tokens = []) ∧
      (protocol.pattern.messages.take (protocol.finalIndex + 1)).flatMap (·.tokens) =
        [e, e, ee, s, es, s, se] := by
  obtain ⟨protocol, compiled, kept, tokens⟩ :
      ∃ protocol,
        compile (entry "XX" []
          [send [e], recv [e, ee, s, es], send [s, se], recv [], send []]).toDraft
          {} .passive = .ok protocol ∧
        (protocol.pattern.messages.take (protocol.finalIndex + 1)).flatMap (·.tokens) =
          [e, e, ee, s, es, s, se] ∧
        protocol.pattern.messages.flatMap (·.tokens) = [e, e, ee, s, es, s, se] :=
    ⟨_, rfl, rfl, rfl⟩
  obtain ⟨later, whole⟩ := all_tokens_compiled_iff compiled
  exact ⟨protocol, compiled, later.2 (whole.1 (kept.trans tokens.symm)), kept⟩

open Catalog in
/-- An empty message after the first one ends the handshake.  The answer is left out,
and with it every secret: the transport keys are split off before any key agreement, and
neither party ever uses the preshared secret, though the pattern has one. -/
theorem tokens_left_out_after_gap :
    ∃ protocol,
      compile (entry "Gap" [] [send [e], send [], recv [e, ee, psk]]).toDraft
        {} .passive = .ok protocol ∧
      protocol.finalIndex = 0 ∧
      protocol.pattern.messages[2]? = some (recv [e, ee, psk]) ∧
      (protocol.pattern.messages.take (protocol.finalIndex + 1)).flatMap
        (·.tokens) = [e] ∧
      protocol.steps.map (·.write) =
        [[.generateEphemeral, .emit (.own .ephemeral), .mixHash (.own .ephemeral),
          .mixKey (.value (.own .ephemeral)), .authEncrypt .payload, .split]] ∧
      protocol.hasPsk = true ∧ ∀ role, protocol.requires role .psk = false := by
  refine ⟨_, rfl, rfl, rfl, rfl, rfl, rfl, ?_⟩
  intro role
  cases role <;> rfl

end Noise.Protocol
