import Mathlib.Data.List.TakeWhile
import Mathlib.Data.Set.List
import Noise.Proofs.Handshake.Wire
import Noise.Proofs.Pattern.FinalMessage
import Noise.Proofs.Pattern.Spelling
import Noise.Proofs.ProtocolName

/-!
# Which drafts compile, and to what

A draft is accepted just when it is a pattern written down and its messages
exchange a key.  The compiled protocol has one step for each message up to the
final one, and the programs of a role, put together, end with the only split.
Normalizing first changes nothing.
-/

namespace Noise

/-! ## Drafts that are patterns written down -/

section Reading

variable {α β ε : Type} {read : α → Except ε β} {written : β → α}

/-- A list is read item by item. -/
theorem mapM_eq_ok
    (inverse : ∀ item value, read item = .ok value ↔ item = written value)
    {items : List α} {values : List β} :
    items.mapM read = .ok values ↔ items = values.map written := by
  simp only [mapM_eq_ok_iff, inverse]
  rw [← List.forall₂_map_right_iff, List.forall₂_eq_eq_eq]

/-- Items that are all written values are together a list of written values. -/
theorem exists_map_eq {items : List α} :
    (∃ values : List β, items = values.map written) ↔
      ∀ item ∈ items, ∃ value, item = written value := by
  have ranges := Set.ext_iff.1 (Set.range_list_map written) items
  simp only [Set.mem_range, Set.mem_ofPred_eq, eq_comm] at ranges
  exact ranges

end Reading

theorem Word.toDirection_eq_ok {word : Word Direction} {direction : Direction} :
    word.toDirection = .ok direction ↔ word = .term direction := by
  cases word <;> simp [toDirection]

theorem Word.toDirection_eq_error {word : Word Direction} {error : DraftError} :
    word.toDirection = .error error ↔
      ∃ object, word = .stray object ∧
        error = .malformed (.unknownDirection object) := by
  cases word <;> simp [toDirection, eq_comm]

theorem Word.toToken_eq_error {word : Word Token} {error : DraftError} :
    word.toToken = .error error ↔
      ∃ object, word = .stray object ∧ error = .malformed (.unknownToken object) := by
  cases word <;> simp [toToken, eq_comm]

theorem Word.toToken_eq_ok {word : Word Token} {token : Token} :
    word.toToken = .ok token ↔ word = .term token := by
  cases word <;> simp [toToken]

theorem PreMessageKeys.ofWords?_eq_some {words : List (Word Token)}
    {keys : PreMessageKeys} :
    ofWords? words = some keys ↔ words = keys.words := by
  constructor
  · intro named
    unfold ofWords? at named
    split at named <;> cases named <;> rfl
  · rintro rfl
    exact ofWords?_words keys

namespace Row

variable {row : DraftRow}

theorem toMessage_eq_ok {message : Message} : row.toMessage = .ok message ↔
    row = ofMessage message := by
  constructor
  · intro made
    obtain ⟨direction, sent, made⟩ := bind_eq_ok.1 made
    obtain ⟨tokens, read, made⟩ := bind_eq_ok.1 made
    obtain rfl := Except.ok.inj made
    rw [Word.toDirection_eq_ok] at sent
    rw [mapM_eq_ok fun _ _ => Word.toToken_eq_ok] at read
    rw [ofMessage, ← sent, ← read]
  · rintro rfl
    exact toMessage_ofMessage message

theorem toPreMessage_eq_ok {preMessage : PreMessage} :
    row.toPreMessage = .ok preMessage ↔ row = ofPreMessage preMessage := by
  constructor
  · intro made
    obtain ⟨direction, sent, made⟩ := bind_eq_ok.1 made
    rw [Word.toDirection_eq_ok] at sent
    cases named : PreMessageKeys.ofWords? row.tokens with
    | none =>
        rw [named] at made
        obtain ⟨names, -, refused⟩ := bind_eq_ok.1 made
        cases refused
    | some keys =>
        rw [named] at made
        obtain rfl := Except.ok.inj made
        rw [PreMessageKeys.ofWords?_eq_some] at named
        rw [ofPreMessage, ← sent, ← named]
  · rintro rfl
    exact toPreMessage_ofPreMessage preMessage

theorem exists_eq_ofMessage :
    (∃ message, row = ofMessage message) ↔
      (∃ direction, row.direction = .term direction) ∧ ∀ word ∈ row.tokens, ∃ token,
        word = .term token := by
  rw [← exists_map_eq]
  constructor
  · rintro ⟨message, rfl⟩
    exact ⟨⟨_, rfl⟩, _, rfl⟩
  · rintro ⟨⟨direction, sent⟩, tokens, written⟩
    exact ⟨{ direction, tokens }, by rw [ofMessage, ← sent, ← written]⟩

theorem exists_eq_ofPreMessage :
    (∃ preMessage, row = ofPreMessage preMessage) ↔
      (∃ direction, row.direction = .term direction) ∧
        ∃ keys : PreMessageKeys, row.tokens = keys.words := by
  constructor
  · rintro ⟨preMessage, rfl⟩
    exact ⟨⟨_, rfl⟩, _, rfl⟩
  · rintro ⟨⟨direction, sent⟩, keys, written⟩
    exact ⟨{ direction, keys }, by rw [ofPreMessage, ← sent, ← written]⟩

end Row

namespace Draft

variable {draft : Draft} {pattern : Pattern}

/-- Validation reads a pattern that was written down, if it has a name and a message. -/
theorem validate_eq_ok :
    draft.validate = .ok pattern ↔
      draft.name.isEmpty = false ∧ draft.messages ≠ [] ∧ draft = pattern.toDraft := by
  obtain ⟨name, preMessages, messages, oneWay⟩ := draft
  cases unnamed : name.isEmpty with
  | true => simp [validate, unnamed, throw, throwThe, MonadExceptOf.throw]
  | false =>
      cases messages with
      | nil => simp [validate, unnamed, throw, throwThe, MonadExceptOf.throw]
      | cons row rest =>
          simp only [validate, unnamed, Bool.false_eq_true, ↓reduceIte,
            List.isEmpty_cons, bind_eq_ok, mapM_eq_ok fun _ _ => Row.toPreMessage_eq_ok,
            mapM_eq_ok fun _ _ => Row.toMessage_eq_ok]
          constructor
          · rintro ⟨preMessages, rfl, messages, written, made⟩
            obtain rfl := Except.ok.inj made
            exact ⟨trivial, List.cons_ne_nil _ _, by rw [Pattern.toDraft, ← written]⟩
          · rintro ⟨-, -, same⟩
            obtain ⟨rfl, rfl, written, rfl⟩ := Draft.mk.inj same
            exact ⟨pattern.preMessages, rfl, pattern.messages, written, rfl⟩

theorem normalize_eq_ok :
    draft.normalize = .ok pattern ↔
      ∃ plain, draft.validate = .ok plain ∧ plain.normalize = pattern := by
  cases checked : draft.validate <;> simp [normalize, checked, Except.map]

theorem normalize_eq_error {error : DraftError} :
    draft.normalize = .error error ↔ draft.validate = .error error := by
  cases checked : draft.validate <;> simp [normalize, checked, Except.map]

end Draft

/-! ## The messages of a draft and of its pattern -/

namespace Analysis

@[simp] theorem isFilled_map_ofMessage (messages : List Message) :
    isFilled (messages.map Row.ofMessage) = isFilled messages := by
  funext index
  simp [isFilled, Option.any_map, Row.ofMessage]

/-- The empty message that a one-way pattern gets is not filled. -/
@[simp] theorem isFilled_normalize (pattern : Pattern) :
    isFilled pattern.normalize.messages = isFilled pattern.messages := by
  rw [Pattern.normalize]
  split
  next single =>
    funext index
    rcases Nat.lt_or_ge index pattern.messages.length with inside | outside
    · rw [isFilled, isFilled, List.getElem?_append_left inside]
    · rw [isFilled, isFilled, List.getElem?_append_right outside,
        List.getElem?_eq_none outside]
      cases index - pattern.messages.length <;> rfl
  next => rfl

end Analysis

theorem Pattern.getElem?_normalize {pattern : Pattern} {index : Nat}
    (inside : index < pattern.messages.length) :
    pattern.normalize.messages[index]? = pattern.messages[index]? := by
  rw [normalize]
  split
  · exact List.getElem?_append_left inside
  · rfl

theorem Draft.isFilled_eq {draft : Draft} {pattern : Pattern}
    (checked : draft.normalize = .ok pattern) :
    Analysis.isFilled pattern.messages = Analysis.isFilled draft.messages := by
  obtain ⟨plain, read, rfl⟩ := Draft.normalize_eq_ok.1 checked
  obtain ⟨-, -, rfl⟩ := Draft.validate_eq_ok.1 read
  rw [Analysis.isFilled_normalize, Pattern.toDraft, Analysis.isFilled_map_ofMessage]

/-! ## Refusals that cannot be put into words -/

/-- A stray object whose value is of a kind, and no text. -/
def Word.Holds (word : Word Token) (kind : String) : Prop :=
  ∃ object, word = .stray object ∧ object.label = .other kind

theorem Word.shown_eq_error {word : Word Token} {place : Nat} {error : DraftError} :
    word.shown place = .error error ↔
      ∃ kind, word.Holds kind ∧ error = .unnamed place kind := by
  cases word with
  | term token => simp [shown, Holds]
  | stray object => cases label : object.label <;> simp [shown, Holds, label, eq_comm]

theorem Word.shown_eq_ok {word : Word Token} {place : Nat} :
    (∃ name, word.shown place = .ok name) ↔ ∀ kind, ¬ word.Holds kind := by
  cases word with
  | term token => simp [shown, Holds]
  | stray object => cases label : object.label <;> simp [shown, Holds, label]

/-- A row with a proper direction in which the first object with a value that is no text
stands at the place, and has a value of the kind. -/
def Row.Stumbles (row : DraftRow) (place : Nat) (kind : String) : Prop :=
  (∃ direction, row.direction = .term direction) ∧
    ∃ before word after, row.tokens = before ++ word :: after ∧ before.length = place ∧
      word.Holds kind ∧ ∀ earlier ∈ before, ∀ other, ¬ earlier.Holds other

/-- Words are shown up to the first object with a value that is no text. -/
theorem mapM_shown_eq_error {words : List (Word Token)} {error : DraftError} :
    words.zipIdx.mapM (fun entry => entry.1.shown entry.2) = .error error ↔
      ∃ before word after kind, words = before ++ word :: after ∧ word.Holds kind ∧
        (∀ earlier ∈ before, ∀ other, ¬ earlier.Holds other) ∧
          error = .unnamed before.length kind := by
  simp only [mapM_eq_error_iff, Word.shown_eq_error, Word.shown_eq_ok]
  constructor
  · rintro ⟨before, ⟨word, place⟩, after, split, fine, kind, holds, rfl⟩
    obtain ⟨words, rest, rfl, rfl, later⟩ := List.zipIdx_eq_append_iff.1 split
    obtain ⟨first, rest, rfl, here, -⟩ := List.zipIdx_eq_cons_iff.1 later.symm
    obtain ⟨rfl, rfl⟩ := Prod.mk.inj here
    refine ⟨words, word, rest, kind, rfl, holds, ?_, by rw [Nat.zero_add]⟩
    intro earlier there
    obtain ⟨index, inside, rfl⟩ := List.mem_iff_getElem.1 there
    exact fine (words[index], index)
      (List.mem_zipIdx_iff_getElem?.2 (List.getElem?_eq_getElem inside))
  · rintro ⟨before, word, after, kind, rfl, holds, fine, rfl⟩
    refine ⟨before.zipIdx, (word, before.length), after.zipIdx (before.length + 1), ?_,
      ?_, kind, holds, rfl⟩
    · simp [List.zipIdx_append, List.zipIdx_cons]
    · rintro ⟨earlier, index⟩ there
      exact fine earlier (List.fst_mem_of_mem_zipIdx there)

/-- Terms have names. -/
theorem PreMessageKeys.not_holds {keys : PreMessageKeys} {word : Word Token}
    {kind : String} (there : word ∈ keys.words) : ¬ word.Holds kind := by
  rintro ⟨object, rfl, -⟩
  simp [words] at there

theorem Row.toPreMessage_eq_unnamed {row : DraftRow} {place : Nat} {kind : String} :
    row.toPreMessage = .error (.unnamed place kind) ↔ row.Stumbles place kind := by
  rw [toPreMessage, bind_eq_error]
  constructor
  · rintro (undirected | ⟨direction, directed, failed⟩)
    · obtain ⟨object, -, refused⟩ := Word.toDirection_eq_error.1 undirected
      cases refused
    · refine ⟨⟨direction, Word.toDirection_eq_ok.1 directed⟩, ?_⟩
      cases named : PreMessageKeys.ofWords? row.tokens with
      | some keys =>
          rw [named] at failed
          cases failed
      | none =>
          rw [named] at failed
          rcases bind_eq_error.1 failed with failed | ⟨names, -, refused⟩
          · obtain ⟨before, word, after, found, same, holds, fine, stuck⟩ :=
              mapM_shown_eq_error.1 failed
            obtain ⟨rfl, rfl⟩ := DraftError.unnamed.inj stuck
            exact ⟨before, word, after, same, rfl, holds, fine⟩
          · cases refused
  · rintro ⟨⟨direction, directed⟩, before, word, after, same, rfl, holds, fine⟩
    refine .inr ⟨direction, Word.toDirection_eq_ok.2 directed, ?_⟩
    have unread : PreMessageKeys.ofWords? row.tokens = none := by
      refine Option.eq_none_iff_forall_ne_some.2 fun keys named => ?_
      rw [PreMessageKeys.ofWords?_eq_some] at named
      exact PreMessageKeys.not_holds (by rw [← named, same]; simp) holds
    have stuck :=
      mapM_shown_eq_error.2 ⟨before, word, after, kind, same, holds, fine, rfl⟩
    rw [unread, stuck]
    rfl

/-- The refusal of a message is always put into words. -/
theorem Row.toMessage_ne_unnamed {row : DraftRow} {place : Nat} {kind : String} :
    row.toMessage ≠ .error (.unnamed place kind) := by
  intro failed
  rcases bind_eq_error.1 failed with undirected | ⟨direction, -, failed⟩
  · obtain ⟨object, -, refused⟩ := Word.toDirection_eq_error.1 undirected
    cases refused
  · rcases bind_eq_error.1 failed with unread | ⟨tokens, -, made⟩
    · obtain ⟨-, word, -, -, -, unread⟩ := mapM_eq_error_iff.1 unread
      obtain ⟨object, -, refused⟩ := Word.toToken_eq_error.1 unread
      cases refused
    · cases made

/-- A draft whose first fault is a row of the pre-messages that cannot be refused in
words, because of the object at the place in it. -/
structure Draft.Stumbles (draft : Draft) (place : Nat) (kind : String) : Prop where
  named : draft.name.isEmpty = false
  nonempty : draft.messages ≠ []
  preMessages : ∃ before row after, draft.preMessages = before ++ row :: after ∧
    (∀ earlier ∈ before, ∃ preMessage, earlier = Row.ofPreMessage preMessage) ∧
    row.Stumbles place kind

theorem Draft.validate_eq_unnamed {draft : Draft} {place : Nat} {kind : String} :
    draft.validate = .error (.unnamed place kind) ↔ draft.Stumbles place kind := by
  have stuck : draft.preMessages.mapM Row.toPreMessage = .error (.unnamed place kind) ↔
      ∃ before row after, draft.preMessages = before ++ row :: after ∧
        (∀ earlier ∈ before, ∃ preMessage, earlier = Row.ofPreMessage preMessage) ∧
        row.Stumbles place kind := by
    simp only [mapM_eq_error_iff, Row.toPreMessage_eq_ok, Row.toPreMessage_eq_unnamed]
  obtain ⟨name, preMessages, messages, oneWay⟩ := draft
  cases unnamed : name.isEmpty with
  | true =>
      constructor
      · intro failed
        simp [validate, unnamed, throw, throwThe, MonadExceptOf.throw] at failed
      · rintro ⟨named, -, -⟩
        cases unnamed.symm.trans named
  | false =>
      cases messages with
      | nil =>
          constructor
          · intro failed
            simp [validate, unnamed, throw, throwThe, MonadExceptOf.throw] at failed
          · rintro ⟨-, nonempty, -⟩
            exact absurd rfl nonempty
      | cons message rest =>
          simp only [validate, unnamed, Bool.false_eq_true, ↓reduceIte,
            List.isEmpty_cons]
          constructor
          · intro failed
            rcases bind_eq_error.1 failed with failed | ⟨read, -, failed⟩
            · exact ⟨unnamed, List.cons_ne_nil _ _, stuck.1 failed⟩
            · rcases bind_eq_error.1 failed with failed | ⟨messages, -, made⟩
              · obtain ⟨-, row, -, -, -, failed⟩ := mapM_eq_error_iff.1 failed
                exact absurd failed Row.toMessage_ne_unnamed
              · cases made
          · rintro ⟨-, -, first⟩
            exact bind_eq_error.2 (.inl (stuck.2 first))

/-! ## Acceptance -/

/-- A draft with all that a handshake needs: a name, messages, terms of the vocabulary
in every place, public keys alone in the pre-messages, and tokens in the first message
or in two messages next to each other. -/
structure Draft.IsSound (draft : Draft) : Prop where
  named : draft.name.isEmpty = false
  nonempty : draft.messages ≠ []
  directions : ∀ row ∈ draft.preMessages ++ draft.messages, ∃ direction,
    row.direction = .term direction
  keys : ∀ row ∈ draft.preMessages, row.tokens = [.term (.key .ephemeral)] ∨
    row.tokens = [.term (.key .static)] ∨
    row.tokens = [.term (.key .ephemeral), .term (.key .static)]
  tokens : ∀ row ∈ draft.messages, ∀ word ∈ row.tokens, ∃ token, word = .term token
  exchange : Analysis.isFilled draft.messages 0 = true ∨
    ∃ index, Analysis.isFilled draft.messages index = true ∧
      Analysis.isFilled draft.messages (index + 1) = true

theorem PreMessageKeys.exists_words {words : List (Word Token)} :
    (∃ keys : PreMessageKeys, words = keys.words) ↔
      words = [.term (.key .ephemeral)] ∨ words = [.term (.key .static)] ∨
        words = [.term (.key .ephemeral), .term (.key .static)] := by
  constructor
  · rintro ⟨_ | _ | _, rfl⟩
    · exact .inl rfl
    · exact .inr (.inl rfl)
    · exact .inr (.inr rfl)
  · rintro (rfl | rfl | rfl)
    · exact ⟨.ephemeral, rfl⟩
    · exact ⟨.static, rfl⟩
    · exact ⟨.both, rfl⟩

namespace Draft

variable {draft : Draft}

theorem exists_eq_toDraft :
    (∃ pattern : Pattern, draft = pattern.toDraft) ↔
      (∃ preMessages : List PreMessage,
        draft.preMessages = preMessages.map Row.ofPreMessage) ∧
        ∃ messages : List Message, draft.messages = messages.map Row.ofMessage := by
  constructor
  · rintro ⟨pattern, rfl⟩
    exact ⟨⟨_, rfl⟩, _, rfl⟩
  · rintro ⟨⟨preMessages, writtenBefore⟩, messages, written⟩
    refine ⟨{ name := draft.name, preMessages, messages, oneWay := draft.oneWay }, ?_⟩
    rw [Pattern.toDraft, ← writtenBefore, ← written]

/-- A sound draft is valid and has a final message, and no other draft is. -/
theorem isSound_iff :
    draft.IsSound ↔
      ∃ pattern finalIndex, draft.normalize = .ok pattern ∧
        pattern.analysis.finalIndex = some finalIndex := by
  have written : (∃ pattern : Pattern, draft = pattern.toDraft) ↔
      (∀ row ∈ draft.preMessages ++ draft.messages, ∃ direction,
        row.direction = .term direction) ∧
        (∀ row ∈ draft.preMessages, ∃ keys : PreMessageKeys, row.tokens = keys.words) ∧
        ∀ row ∈ draft.messages, ∀ word ∈ row.tokens, ∃ token, word = .term token := by
    rw [exists_eq_toDraft, exists_map_eq, exists_map_eq]
    simp only [Row.exists_eq_ofPreMessage, Row.exists_eq_ofMessage,
      List.forall_mem_append]
    grind
  constructor
  · rintro ⟨named, nonempty, directions, keys, tokens, exchange⟩
    simp only [← PreMessageKeys.exists_words] at keys
    obtain ⟨plain, same⟩ := written.2 ⟨directions, keys, tokens⟩
    have checked : draft.normalize = .ok plain.normalize :=
      normalize_eq_ok.2 ⟨plain, validate_eq_ok.2 ⟨named, nonempty, same⟩, rfl⟩
    rw [← isFilled_eq checked, ← Analysis.exists_finalIndex] at exchange
    obtain ⟨finalIndex, final⟩ := exchange
    exact ⟨plain.normalize, finalIndex, checked, final⟩
  · rintro ⟨pattern, finalIndex, checked, final⟩
    obtain ⟨plain, read, -⟩ := normalize_eq_ok.1 checked
    obtain ⟨named, nonempty, same⟩ := validate_eq_ok.1 read
    obtain ⟨directions, keys, tokens⟩ := written.1 ⟨plain, same⟩
    simp only [PreMessageKeys.exists_words] at keys
    have exchange := Analysis.exists_finalIndex.1 ⟨finalIndex, final⟩
    rw [isFilled_eq checked] at exchange
    exact ⟨named, nonempty, directions, keys, tokens, exchange⟩

theorem Stumbles.not_isSound {place : Nat} {kind : String}
    (stumbles : draft.Stumbles place kind) : ¬ draft.IsSound := by
  intro sound
  obtain ⟨pattern, -, checked, -⟩ := isSound_iff.1 sound
  have refused := normalize_eq_error.2 (validate_eq_unnamed.2 stumbles)
  cases refused.symm.trans checked

end Draft

namespace Suite

/-- An ASCII name makes an ASCII protocol name. -/
theorem patternName_of_ascii (suite : Suite) {name : String}
    (ascii : ∀ char ∈ name.toList, Text.isAscii char = true) :
    suite.patternName (.text name) = .ok name := by
  simp only [patternName, Text.ascii?_eq_ok (suite.isAscii_protocolName ascii)]

end Suite

namespace Protocol

variable {draft : Draft} {suite : Suite} {attacker : AttackerModel}
  {protocol : Protocol} {name : String}

theorem normalize_of_compile (compiled : compile draft suite attacker = .ok protocol) :
    draft.normalize = .ok protocol.pattern := by
  obtain ⟨pattern, checked, compiled⟩ := bind_eq_ok.1 compiled
  cases found : draft.normalize with
  | error cause =>
      rw [found] at checked
      cases checked
  | ok normal =>
      rw [found] at checked
      obtain rfl := Except.ok.inj checked
      cases final : normal.analysis.finalIndex with
      | none =>
          simp only [final] at compiled
          cases compiled
      | some finalIndex =>
          simp only [final] at compiled
          obtain ⟨name, -, made⟩ := bind_eq_ok.1 compiled
          obtain rfl := Except.ok.inj made
          rfl

theorem name_of_normalize {pattern : Pattern}
    (checked : draft.normalize = .ok pattern) :
    pattern.name = draft.name := by
  obtain ⟨plain, read, rfl⟩ := Draft.normalize_eq_ok.1 checked
  obtain ⟨-, -, rfl⟩ := Draft.validate_eq_ok.1 read
  rw [Pattern.normalize]
  split <;> rfl

/-- With an ASCII name a draft compiles, or it is refused, in words if it
does not stumble. -/
theorem compile_cases (named : draft.name = .text name)
    (ascii : ∀ char ∈ name.toList, Text.isAscii char = true) (suite : Suite)
    (attacker : AttackerModel) :
    draft.IsSound ∧ (∃ protocol, compile draft suite attacker = .ok protocol) ∨
      ¬ draft.IsSound ∧ ∃ cause, compile draft suite attacker = .error (.draft cause) ∧
        ∀ place kind, cause = .unnamed place kind ↔ draft.Stumbles place kind := by
  simp only [Draft.isSound_iff, ← Draft.validate_eq_unnamed, ← Draft.normalize_eq_error]
  cases checked : draft.normalize with
  | error cause =>
      refine .inr ⟨?_, cause, ?_, ?_⟩
      · rintro ⟨_, _, ⟨⟩, -⟩
      · rw [compile, checked]
        rfl
      · intro place kind
        rw [Except.error.injEq]
  | ok pattern =>
      have sameName := name_of_normalize checked
      rw [named] at sameName
      cases final : pattern.analysis.finalIndex with
      | none =>
          refine .inr ⟨?_, .malformed (.noFinalMessage pattern.name), ?_, ?_⟩
          · rintro ⟨_, finalIndex, same, found⟩
            obtain rfl := Except.ok.inj same
            cases final.symm.trans found
          · rw [compile, checked]
            simp only [mapError_ok, ok_bind, final]
            rfl
          · intro place kind
            simp
      | some finalIndex =>
          refine .inl ⟨⟨pattern, finalIndex, rfl, final⟩, ?_⟩
          rw [compile, checked]
          simp only [mapError_ok, ok_bind, final, sameName,
            suite.patternName_of_ascii ascii]
          exact ⟨_, rfl⟩

/-- A pattern in normal form is compiled like the draft that it comes from. -/
theorem compile_normalize (draft : Draft) (suite : Suite) (attacker : AttackerModel) :
    (draft.normalize.mapError .draft >>= fun pattern =>
      compile pattern.toDraft suite attacker) = compile draft suite attacker := by
  cases checked : draft.normalize with
  | error cause =>
      rw [compile, checked]
      rfl
  | ok pattern =>
      obtain ⟨plain, read, normal⟩ := Draft.normalize_eq_ok.1 checked
      obtain ⟨named, nonempty, rfl⟩ := Draft.validate_eq_ok.1 read
      have again : pattern.toDraft.normalize = .ok pattern := by
        refine Draft.normalize_eq_ok.2
          ⟨pattern, Draft.validate_eq_ok.2 ⟨?_, ?_, rfl⟩, ?_⟩
        · rw [← named, ← name_of_normalize checked]
          rfl
        · have filled := nonempty
          rw [← normal, Pattern.normalize]
          split <;> simp_all [Pattern.toDraft]
        · rw [← normal, Pattern.normalize_normalize]
      change compile pattern.toDraft suite attacker = _
      rw [compile, compile, again, checked]

/-! ## The shape of a compiled protocol -/

/-- A program of the final message ends with the split, and nothing else splits. -/
theorem exists_programFor_eq (suite : Suite) (attacker : AttackerModel) (place : Place)
    (message : Message) (role : Role) :
    ∃ body : Program, .split ∉ body ∧
      (Step.ofMessage suite attacker place message).programFor role =
        body ++ if place.isFinal then [.split] else [] := by
  rw [Step.programFor]
  split
  · refine ⟨message.tokens.flatMap
      (Token.write place.hasPsk message.direction.sender) ++
      [.authEncrypt .payload], ?_, by simp [Step.ofMessage]⟩
    simp [(writeTokens_mixes place.hasPsk message.direction.sender message.tokens).1]
  · refine ⟨readTokenList suite attacker place.hasPsk message.direction.sender.other
        place.isKeyed message.tokens ++ [.authDecrypt .payload none none], ?_,
      by simp [Step.ofMessage]⟩
    simp [(readTokens_mixes suite attacker place.hasPsk place.isKeyed
      message.direction.sender.other message.tokens).1]

namespace IsCompiled

variable (compiled : protocol.IsCompiled)
include compiled

theorem length_steps : protocol.steps.length = protocol.finalIndex + 1 := by
  have final := compiled.finalIndex_eq
  rw [compiled.analysis_eq] at final
  have bound := Analysis.finalIndex_lt final
  simp only [compiled.steps_eq, List.length_map, List.length_zipIdx, List.length_take]
  omega

/-- The programs of a role, put together, split once, at the very end. -/
theorem exists_flatten_programsFor (role : Role) :
    ∃ body : Program, (protocol.programsFor role).flatten = body ++ [.split] ∧
      .split ∉ body := by
  have length := compiled.length_steps
  have programs : ∀ index step, protocol.steps[index]? = some step →
      ∃ body : Program, .split ∉ body ∧
        step.programFor role =
          body ++ if index = protocol.finalIndex then [.split] else [] := by
    intro index step found
    have inside := (List.getElem?_eq_some_iff.1 found).1
    obtain ⟨message, -, rfl⟩ := compiled.eq_ofMessage (by omega) found
    obtain ⟨body, free, same⟩ := exists_programFor_eq protocol.suite protocol.attacker
      (.ofAnalysis protocol.analysis index) message role
    rw [compiled.isFinal_ofAnalysis] at same
    exact ⟨body, free, by simpa using same⟩
  obtain ⟨last, found⟩ : ∃ last, protocol.steps[protocol.finalIndex]? = some last :=
    ⟨_, List.getElem?_eq_getElem (by omega)⟩
  obtain ⟨body, free, same⟩ := programs _ last found
  rw [if_pos rfl] at same
  have parted : protocol.steps = protocol.steps.take protocol.finalIndex ++ [last] := by
    have whole := List.take_of_length_le (Nat.le_of_eq length)
    rw [List.take_add_one, found, Option.toList_some] at whole
    exact whole.symm
  let earlier := (protocol.steps.take protocol.finalIndex).map (·.programFor role)
  refine ⟨protocol.initialization role ++ earlier.flatten ++ body, ?_, ?_⟩
  · rw [programsFor, parted]
    simp [same, earlier]
  · simp only [List.mem_append, List.mem_flatten, earlier, List.mem_map, not_or]
    refine ⟨⟨?_, ?_⟩, free⟩
    · rw [compiled.initialization_eq, Pattern.initialization_eq_map]
      simp
    · rintro ⟨program, ⟨step, taken, rfl⟩, splits⟩
      obtain ⟨index, inside, found⟩ := List.mem_take_iff_getElem.1 taken
      obtain ⟨body, free, same⟩ :=
        programs index step (List.getElem?_eq_some_iff.2 ⟨by omega, found⟩)
      rw [if_neg (by omega), List.append_nil] at same
      exact free (same ▸ splits)

end IsCompiled

/-- A protocol of the shape that its draft prescribes. -/
structure Follows (protocol : Protocol) (draft : Draft) : Prop where
  /-- The final message ends the first run of messages with tokens that
  counts as an exchange. -/
  final : ∃ start,
    Analysis.FirstExchange (Analysis.isFilled draft.messages) start protocol.finalIndex
  length_steps : protocol.steps.length = protocol.finalIndex + 1
  steps : ∀ (index : Nat) (step : Step), protocol.steps[index]? = some step →
    step.index = index ∧ (step.isFinal = true ↔ index = protocol.finalIndex) ∧
      ∃ row direction, draft.messages[index]? = some row ∧
        row.direction = .term direction ∧
        step.sender = direction.sender
  split : ∀ role, ∃ body : Program,
    (protocol.programsFor role).flatten = body ++ [.split] ∧ .split ∉ body

theorem follows_of_compile (compiled : compile draft suite attacker = .ok protocol) :
    protocol.Follows draft := by
  obtain ⟨wellFormed, -, -⟩ := isCompiled_of_compile compiled
  have checked := normalize_of_compile compiled
  have final := wellFormed.finalIndex_eq
  rw [wellFormed.analysis_eq, Analysis.finalIndex_eq_some,
    Draft.isFilled_eq checked] at final
  have length := wellFormed.length_steps
  refine ⟨final, length, ?_, wellFormed.exists_flatten_programsFor⟩
  intro index step found
  have inside := (List.getElem?_eq_some_iff.1 found).1
  obtain ⟨message, there, rfl⟩ := wellFormed.eq_ofMessage (by omega) found
  refine ⟨rfl, ?_, Row.ofMessage message, message.direction, ?_, rfl, rfl⟩
  · change (Place.ofAnalysis protocol.analysis index).isFinal = true ↔ _
    rw [wellFormed.isFinal_ofAnalysis, beq_iff_eq]
  · obtain ⟨start, run⟩ := final
    have bound := Analysis.lt_of_isFilled (run.inside _ run.ordered (Nat.le_refl _))
    obtain ⟨plain, read, normal⟩ := Draft.normalize_eq_ok.1 checked
    obtain ⟨-, -, rfl⟩ := Draft.validate_eq_ok.1 read
    rw [Pattern.toDraft, List.length_map] at bound
    rw [← normal, Pattern.getElem?_normalize (by omega)] at there
    rw [Pattern.toDraft, List.getElem?_map, there]
    rfl

/-- Acceptance is exact.  A draft with an ASCII name compiles if and only if it is
sound. Any other draft is refused as malformed, except those that stumble: their first
fault is a pre-message with an object whose value is no text, and the refusal fails on
that object. What a draft compiles to has the shape that the draft prescribes, and so it
does for the draft's normal form. -/
theorem exists_compile_iff_isSound {draft : Draft} {name : String}
    (named : draft.name = .text name)
    (ascii : ∀ char ∈ name.toList, Text.isAscii char = true) (suite : Suite)
    (attacker : AttackerModel) :
    ((∃ protocol, compile draft suite attacker = .ok protocol) ↔ draft.IsSound) ∧
      ((∃ cause, compile draft suite attacker = .error (.draft (.malformed cause))) ↔
        ¬ draft.IsSound ∧ ∀ place kind, ¬ draft.Stumbles place kind) ∧
      (∀ place kind,
        compile draft suite attacker = .error (.draft (.unnamed place kind)) ↔
          draft.Stumbles place kind) ∧
      (∀ protocol, compile draft suite attacker = .ok protocol →
        protocol.Follows draft) ∧
      (draft.normalize.mapError .draft >>= fun pattern =>
          compile pattern.toDraft suite attacker) =
        compile draft suite attacker := by
  obtain ⟨sound, protocol, made⟩ | ⟨unsound, cause, refused, stuck⟩ :=
    compile_cases named ascii suite attacker
  · have steady : ∀ place kind, ¬ draft.Stumbles place kind :=
      fun _ _ stumbles => stumbles.not_isSound sound
    refine ⟨?_, ?_, ?_, fun _ => follows_of_compile,
      compile_normalize draft suite attacker⟩
    · simp [made, sound]
    · simp [made, sound]
    · simp [made, steady]
  · refine ⟨?_, ?_, ?_, fun _ => follows_of_compile,
      compile_normalize draft suite attacker⟩
    · simp [refused, unsound]
    · rw [refused]
      constructor
      · rintro ⟨why, same⟩
        obtain rfl : cause = .malformed why := by simpa using same
        refine ⟨unsound, fun place kind stumbles => ?_⟩
        cases (stuck place kind).2 stumbles
      · rintro ⟨-, steady⟩
        cases cause with
        | malformed why => exact ⟨why, rfl⟩
        | unnamed place kind =>
            exact absurd ((stuck place kind).1 rfl) (steady place kind)
    · intro place kind
      rw [refused, ← stuck, Except.error.injEq, CompileError.draft.injEq]

open Catalog in
/-- The first message is empty and the exchange starts with the second; after it only
one message has tokens, and that one has no step. -/
theorem exists_compile_iff_isSound_of_late_exchange :
    let draft :=
      (entry "Late" [] [send [], send [e], recv [e, ee], send [], recv [s]]).toDraft
    draft.name = .text "Late" ∧ (∀ char ∈ "Late".toList, Text.isAscii char = true) ∧
      draft.IsSound ∧
      ∃ protocol, compile draft {} .active = .ok protocol ∧ protocol.finalIndex = 2 ∧
        protocol.Follows draft := by
  intro draft
  have ascii : ∀ char ∈ "Late".toList, Text.isAscii char = true :=
    List.all_eq_true.1 (by decide)
  have named : draft.name = .text "Late" := rfl
  obtain ⟨accepted, -, -, shape, -⟩ := exists_compile_iff_isSound named ascii {} .active
  exact ⟨named, ascii, accepted.1 ⟨_, rfl⟩, _, rfl, rfl, shape _ rfl⟩

open Catalog in
/-- A pre-message that names a status code in the place of a key is not sound, and the
refusal stumbles over the number that the status code holds. -/
theorem compile_stumbles_over_status_code :
    let status : Stray :=
      { kind := "HTTPStatus", plain := "200", literal := "<HTTPStatus.OK: 200>",
        label := .other "int" }
    let draft : Draft :=
      { name := .text "X"
        preMessages := [{ direction := .term .send, tokens := [.stray status] }]
        messages := [Row.ofMessage (send [e])] }
    ¬ draft.IsSound ∧ compile draft {} .active = .error (.draft (.unnamed 0 "int")) ∧
      ¬ ∃ cause, compile draft {} .active = .error (.draft (.malformed cause)) := by
  intro status draft
  have stumbles : draft.Stumbles 0 "int" :=
    ⟨rfl, List.cons_ne_nil _ _, [], _, [], rfl, List.forall_mem_nil _, ⟨.send, rfl⟩,
      [], _, [], rfl, rfl, ⟨status, rfl, rfl⟩, List.forall_mem_nil _⟩
  have refused : compile draft {} .active = .error (.draft (.unnamed 0 "int")) := rfl
  refine ⟨stumbles.not_isSound, refused, ?_⟩
  rintro ⟨cause, malformed⟩
  cases refused.symm.trans malformed

end Protocol

end Noise
