import Noise.Pattern.Record
import Noise.Proofs.Pattern.Notation

/-!
# What records stand for

A record describes a pattern when its entries describe the rows, each by a direction and
tokens that it spells. Reading finds exactly what a record describes, and arrows that
draw the same rows are read as the same draft. A record that describes nothing is
malformed, unless reading it comes to a value that has no items where items are needed.
-/

namespace Noise

variable {value entry got name : Value} {fields : List (String × Value)}
  {kind : RowKind} {tokens : List Token}
  {row : Message} {rows preMessages messages : List Message} {error : ReadError}

namespace Value

/-! ## Values that describe -/

/-- A value that lists tokens: a text by its words, any other value by its items. -/
inductive ListsTokens : Value → List Token → Prop where
  | words {text : String} {tokens : List Token}
      (lists : Noise.ListsTokens text.toList tokens) :
      ListsTokens (.text text) tokens
  | items {value : Value} {items : List Value} {tokens : List Token}
      (noText : ∀ text, value ≠ .text text) (listed : value.items? = some items)
      (spelled : List.Forall₂ (fun item token => item.Spells token.name) items tokens) :
        ListsTokens value tokens

/-- The direction of an entry with these fields. -/
def entryDirection (fields : List (String × Value)) : Value :=
  (fields.lookup "dir").getD ((fields.lookup "direction").getD .null)

/-- The pre-messages of a record with these fields. -/
def recordPreMessages (fields : List (String × Value)) : Value :=
  (fields.lookup "preMessages").getD ((fields.lookup "pre_messages").getD (.list []))

/-- An entry that describes a row. -/
inductive DescribesRow : Value → Message → Prop where
  | entry {fields : List (String × Value)} {listed : Value} {row : Message}
      (directed : (entryDirection fields).Spells row.direction.name)
      (hasTokens : fields.lookup "tokens" = some listed)
      (lists : listed.ListsTokens row.tokens) :
      DescribesRow (.record fields) row

/-- A value whose items describe rows. -/
def DescribesRows (value : Value) (rows : List Message) : Prop :=
  ∃ items, value.items? = some items ∧ List.Forall₂ DescribesRow items rows

/-- A record that describes a pattern. -/
inductive Describes : Value → Value → List Message → List Message → Prop where
  | record {fields : List (String × Value)} {name listed : Value}
      {preMessages messages : List Message}
      (named : fields.lookup "name" = some name)
      (hasMessages : fields.lookup "messages" = some listed)
      (describesPre : (recordPreMessages fields).DescribesRows preMessages)
      (describes : listed.DescribesRows messages) :
        Describes (.record fields) name preMessages messages

/-! ## Values that stop the reader -/

/-- An entry that stops the reader: its direction is fine, and its tokens are
no list. -/
inductive StopsRow : Value → Value → Prop where
  | entry {fields : List (String × Value)} {direction : Direction} {got : Value}
      (directed : (entryDirection fields).Spells direction.name)
      (hasTokens : fields.lookup "tokens" = some got) (bare : got.items? = none) :
        StopsRow (.record fields) got

/-- Rows that stop the reader: they are no list, or an entry does that comes
after proper ones. -/
inductive StopsRows : Value → Value → Prop where
  | bare {got : Value} (bare : got.items? = none) : StopsRows got got
  | entry {value entry got : Value} {before after : List Value}
      (listed : value.items? = some (before ++ entry :: after))
      (described : ∀ earlier ∈ before, ∃ row, earlier.DescribesRow row)
      (stops : entry.StopsRow got) :
      StopsRows value got

/-- A record that stops the reader, at the pre-messages or after them at the
messages. -/
inductive Stops : Value → Value → Prop where
  | preMessages {fields : List (String × Value)} {name listed got : Value}
      (named : fields.lookup "name" = some name)
      (hasMessages : fields.lookup "messages" = some listed)
      (stops : (recordPreMessages fields).StopsRows got) : Stops (.record fields) got
  | messages {fields : List (String × Value)} {name listed got : Value}
      {preMessages : List Message}
      (named : fields.lookup "name" = some name)
      (hasMessages : fields.lookup "messages" = some listed)
      (describesPre : (recordPreMessages fields).DescribesRows preMessages)
      (stops : listed.StopsRows got) : Stops (.record fields) got

end Value

/-! ## Tokens -/

theorem readTokens_of_items {items : List Value} (noText : ∀ text, value ≠ .text text)
    (listed : value.items? = some items) :
    readTokens value = (items.mapM Value.toToken).mapError .malformed := by
  cases value with
  | text text => exact absurd rfl (noText text)
  | null | bool | int | decimal | list | record => simp_all [readTokens]

theorem readTokens_of_bare (bare : value.items? = none) :
    readTokens value = .error (.noItems value) := by
  cases value with
  | text | list | record => cases bare
  | null | bool | int | decimal => rfl

/-- What is read as tokens: the words of a text, the items of another value, or
nothing that has items. -/
theorem readTokens_cases (value : Value) :
    (∃ text, value = .text text ∧ readTokens value =
      (readTokenText text).mapError .malformed) ∨
      (∃ items, (∀ text, value ≠ .text text) ∧ value.items? = some items) ∨
        value.items? = none := by
  cases value with
  | text text => exact .inl ⟨text, rfl, rfl⟩
  | list | record => exact .inr (.inl ⟨_, nofun, rfl⟩)
  | null | bool | int | decimal => exact .inr (.inr rfl)

theorem readTokens_eq_ok : readTokens value = .ok tokens ↔
    value.ListsTokens tokens := by
  constructor
  · intro read
    rcases readTokens_cases value with ⟨text, rfl, words⟩
      | ⟨items, noText, listed⟩ | bare
    · rw [words, mapError_eq_ok, readTokenText_eq_ok] at read
      exact .words read
    · rw [readTokens_of_items noText listed, mapError_eq_ok, mapM_eq_ok_iff] at read
      exact .items noText listed (read.imp fun _ _ read => Value.toToken_eq_ok.1 read)
    · rw [readTokens_of_bare bare] at read
      cases read
  · intro lists
    cases lists with
    | words lists => exact mapError_eq_ok.2 (readTokenText_eq_ok.2 lists)
    | items noText listed spelled =>
        rw [readTokens_of_items noText listed, mapError_eq_ok, mapM_eq_ok_iff]
        exact spelled.imp fun _ _ spells => Value.toToken_eq_ok.2 spells

theorem readTokens_eq_error (failed : readTokens value = .error error) :
    (∃ cause, error = .malformed cause) ∨ error = .noItems value ∧
      value.items? = none := by
  rcases readTokens_cases value with ⟨text, rfl, words⟩ | ⟨items, noText, listed⟩ | bare
  · rw [words] at failed
    exact .inl (malformed_of_mapError failed)
  · rw [readTokens_of_items noText listed] at failed
    exact .inl (malformed_of_mapError failed)
  · rw [readTokens_of_bare bare] at failed
    exact .inr ⟨(Except.error.inj failed).symm, bare⟩

/-! ## Rows -/

theorem readRow_record {listed : Value}
    (hasTokens : fields.lookup "tokens" = some listed) :
    readRow kind (.record fields) =
      (Value.entryDirection fields).toDirection.mapError .malformed >>= fun direction =>
        readTokens listed >>= fun tokens => .ok { direction, tokens } := by
  simp only [readRow, hasTokens]
  rfl

/-- An entry without tokens is malformed. -/
theorem readRow_cases (kind : RowKind) (entry : Value) :
    (∃ fields listed, entry = .record fields ∧ fields.lookup "tokens" = some listed) ∨
      ∃ cause, readRow kind entry = .error (.malformed cause) := by
  cases entry with
  | record fields =>
      cases hasTokens : fields.lookup "tokens" with
      | some listed => exact .inl ⟨fields, listed, rfl, hasTokens⟩
      | none =>
          refine .inr ⟨.rowWithoutTokens kind, ?_⟩
          simp only [readRow, hasTokens]
          rfl
  | null | bool | int | decimal | text | list => exact .inr ⟨_, rfl⟩

theorem readRow_eq_ok : readRow kind entry = .ok row ↔ entry.DescribesRow row := by
  constructor
  · intro read
    rcases readRow_cases kind entry with ⟨fields, listed, rfl, hasTokens⟩
      | ⟨cause, failed⟩
    · rw [readRow_record hasTokens] at read
      obtain ⟨direction, directed, read⟩ := bind_eq_ok.1 read
      obtain ⟨tokens, lists, made⟩ := bind_eq_ok.1 read
      obtain rfl := Except.ok.inj made
      exact .entry (Value.toDirection_eq_ok.1 (mapError_eq_ok.1 directed)) hasTokens
        (readTokens_eq_ok.1 lists)
    · rw [failed] at read
      cases read
  · rintro ⟨directed, hasTokens, lists⟩
    rw [readRow_record hasTokens, Value.toDirection_eq_ok.2 directed, mapError_ok,
      ok_bind, readTokens_eq_ok.2 lists]
    rfl

/-- An entry that is not read as a row is malformed or stops the reader. -/
theorem readRow_eq_error (failed : readRow kind entry = .error error) :
    (∃ cause, error = .malformed cause) ∨ ∃ got,
      error = .noItems got ∧ entry.StopsRow got := by
  rcases readRow_cases kind entry with ⟨fields, listed, rfl, hasTokens⟩
    | ⟨cause, malformed⟩
  · rw [readRow_record hasTokens] at failed
    -- A direction that is not recognised comes before tokens that are no list.
    rcases bind_eq_error.1 failed with undirected | ⟨direction, directed, failed⟩
    · exact .inl (malformed_of_mapError undirected)
    · rcases bind_eq_error.1 failed with unlisted | ⟨tokens, -, made⟩
      · rcases readTokens_eq_error unlisted with malformed | ⟨same, bare⟩
        · exact .inl malformed
        · have spells := Value.toDirection_eq_ok.1 (mapError_eq_ok.1 directed)
          exact .inr ⟨listed, same, .entry spells hasTokens bare⟩
      · cases made
  · rw [malformed] at failed
    exact .inl ⟨cause, (Except.error.inj failed).symm⟩

theorem readRow_of_stops (stops : entry.StopsRow got) :
    readRow kind entry = .error (.noItems got) := by
  cases stops with
  | entry directed hasTokens bare =>
      rw [readRow_record hasTokens, Value.toDirection_eq_ok.2 directed, mapError_ok,
        ok_bind, readTokens_of_bare bare]
      rfl

theorem readRows_of_items {items : List Value} (listed : value.items? = some items) :
    readRows kind value = items.mapM (readRow kind) := by
  rw [readRows, listed]

theorem readRows_of_bare (bare : value.items? = none) :
    readRows kind value = .error (.noItems value) := by
  rw [readRows, bare]

theorem readRows_eq_ok : readRows kind value = .ok rows ↔ value.DescribesRows rows := by
  cases listed : value.items? with
  | none => simp [readRows_of_bare listed, Value.DescribesRows, listed]
  | some items =>
      simp [readRows_of_items listed, Value.DescribesRows, listed, mapM_eq_ok_iff,
        readRow_eq_ok]

/-- Rows that are not read are malformed or stop the reader. -/
theorem readRows_eq_error (failed : readRows kind value = .error error) :
    (∃ cause, error = .malformed cause) ∨ ∃ got,
      error = .noItems got ∧ value.StopsRows got := by
  cases listed : value.items? with
  | none =>
      rw [readRows_of_bare listed] at failed
      exact .inr ⟨value, (Except.error.inj failed).symm, .bare listed⟩
  | some items =>
      rw [readRows_of_items listed] at failed
      obtain ⟨before, entry, after, rfl, fine, failed⟩ := mapM_eq_error_iff.1 failed
      rcases readRow_eq_error failed with malformed | ⟨got, same, stops⟩
      · exact .inl malformed
      · refine .inr ⟨got, same, .entry listed ?_ stops⟩
        exact fun earlier mem => (fine earlier mem).imp fun _ read =>
          readRow_eq_ok.1 read

theorem readRows_of_stops (stops : value.StopsRows got) :
    readRows kind value = .error (.noItems got) := by
  cases stops with
  | bare bare => exact readRows_of_bare bare
  | @entry entry _ before after listed described stops =>
      rw [readRows_of_items listed, mapM_eq_error_iff]
      refine ⟨before, entry, after, rfl, ?_, readRow_of_stops stops⟩
      exact fun earlier mem => (described earlier mem).imp fun _ describes =>
        readRow_eq_ok.2 describes

namespace Draft

/-! ## Records -/

theorem ofRecord_record {listed : Value} (named : fields.lookup "name" = some name)
    (hasMessages : fields.lookup "messages" = some listed) :
    ofRecord (.record fields) =
      readRows .preMessage (Value.recordPreMessages fields) >>= fun preMessages =>
        readRows .message listed >>= fun messages =>
          .ok (.ofRows name preMessages messages) := by
  simp only [ofRecord, named, hasMessages]
  rfl

/-- A record without a name or without messages is malformed. -/
theorem ofRecord_cases (value : Value) :
    (∃ fields name listed, value = .record fields ∧ fields.lookup "name" = some name ∧
        fields.lookup "messages" = some listed) ∨
      ∃ cause, ofRecord value = .error (.malformed cause) := by
  cases value with
  | record fields =>
      cases named : fields.lookup "name" with
      | none =>
          refine .inr ⟨.missingField "name", ?_⟩
          simp only [ofRecord, named]
          rfl
      | some name =>
          cases hasMessages : fields.lookup "messages" with
          | some listed => exact .inl ⟨fields, name, listed, rfl, named, hasMessages⟩
          | none =>
              refine .inr ⟨.missingField "messages", ?_⟩
              simp only [ofRecord, named, hasMessages]
              rfl
  | null | bool | int | decimal | text | list => exact .inr ⟨_, rfl⟩

/-- What is read is what the record describes. -/
theorem describes_of_ofRecord {draft : Draft} (read : ofRecord value = .ok draft) :
    ∃ name preMessages messages,
      draft = .ofRows name preMessages messages ∧
      value.Describes name preMessages messages := by
  rcases ofRecord_cases value with ⟨fields, name, listed, rfl, named, hasMessages⟩
    | ⟨cause, failed⟩
  · rw [ofRecord_record named hasMessages] at read
    obtain ⟨preMessages, readPre, read⟩ := bind_eq_ok.1 read
    obtain ⟨messages, read, made⟩ := bind_eq_ok.1 read
    refine ⟨name, preMessages, messages, (Except.ok.inj made).symm, ?_⟩
    exact .record named hasMessages (readRows_eq_ok.1 readPre) (readRows_eq_ok.1 read)
  · rw [failed] at read
    cases read

theorem ofRecord_of_describes (describes : value.Describes name preMessages messages) :
    ofRecord value = .ok (.ofRows name preMessages messages) := by
  cases describes with
  | record named hasMessages describesPre describes =>
      rw [ofRecord_record named hasMessages, readRows_eq_ok.2 describesPre, ok_bind,
        readRows_eq_ok.2 describes]
      rfl

/-- A record that is not read is malformed or stops the reader. -/
theorem ofRecord_eq_error (failed : ofRecord value = .error error) :
    (∃ cause, error = .malformed cause) ∨ ∃ got,
      error = .noItems got ∧ value.Stops got := by
  rcases ofRecord_cases value with ⟨fields, name, listed, rfl, named, hasMessages⟩
    | ⟨cause, malformed⟩
  · rw [ofRecord_record named hasMessages] at failed
    -- The messages are looked at only once the pre-messages have been read.
    rcases bind_eq_error.1 failed with failed | ⟨preMessages, readPre, failed⟩
    · exact (readRows_eq_error failed).imp_right fun ⟨got, same, stops⟩ =>
        ⟨got, same, .preMessages named hasMessages stops⟩
    · rcases bind_eq_error.1 failed with failed | ⟨messages, -, made⟩
      · exact (readRows_eq_error failed).imp_right fun ⟨got, same, stops⟩ =>
          ⟨got, same, .messages named hasMessages (readRows_eq_ok.1 readPre) stops⟩
      · cases made
  · rw [malformed] at failed
    exact .inl ⟨cause, (Except.error.inj failed).symm⟩

theorem ofRecord_of_stops (stops : value.Stops got) :
    ofRecord value = .error (.noItems got) := by
  cases stops with
  | preMessages named hasMessages stops =>
      rw [ofRecord_record named hasMessages, readRows_of_stops stops]
      rfl
  | messages named hasMessages describesPre stops =>
      rw [ofRecord_record named hasMessages, readRows_eq_ok.2 describesPre, ok_bind,
        readRows_of_stops stops]
      rfl

theorem ofRecord_eq_noItems : ofRecord value = .error (.noItems got) ↔
    value.Stops got := by
  constructor
  · intro failed
    rcases ofRecord_eq_error failed with ⟨cause, same⟩ | ⟨other, same, stops⟩
    · cases same
    · obtain rfl := ReadError.noItems.inj same
      exact stops
  · exact ofRecord_of_stops

/-- When a record that is no pattern is reported as malformed.  Either the record is
read, as directions and tokens only, or it is malformed, just if no value stops the
reader; and what stops it is what the other error names. -/
theorem ofRecord_reports_iff (value : Value) :
    ((∃ draft, ofRecord value = .ok draft ∧ ∀ row ∈ draft.preMessages ++ draft.messages,
          (∃ direction, row.direction = .term direction) ∧ ∀ word ∈ row.tokens, ∃ token,
            word = .term token) ∨
        (∃ cause, ofRecord value = .error (.malformed cause)) ↔
          ∀ got, ¬ value.Stops got) ∧
      ∀ got, ofRecord value = .error (.noItems got) ↔ value.Stops got := by
  refine ⟨?_, fun got => ofRecord_eq_noItems⟩
  simp only [← ofRecord_eq_noItems]
  cases read : ofRecord value with
  | ok draft =>
      obtain ⟨name, preMessages, messages, rfl, -⟩ := describes_of_ofRecord read
      simp only [reduceCtorEq, not_false_eq_true, implies_true, iff_true]
      refine .inl ⟨_, rfl, fun row mem => ?_⟩
      rw [ofRows, ← List.map_append] at mem
      obtain ⟨message, -, rfl⟩ := List.mem_map.1 mem
      refine ⟨⟨message.direction, rfl⟩, fun word mem => ?_⟩
      obtain ⟨token, -, rfl⟩ := List.mem_map.1 mem
      exact ⟨token, rfl⟩
  | error error =>
      rcases ofRecord_eq_error read with ⟨cause, rfl⟩ | ⟨got, rfl, -⟩ <;> simp

/-- Messages that are a number stop the reader, and are not reported as malformed. -/
theorem number_for_messages_escapes :
    let record : Value := .record [("name", .text "X"), ("messages", .int 5)]
    ofRecord record = .error (.noItems (.int 5)) ∧
      ¬ ((∃ draft, ofRecord record = .ok draft) ∨ ∃ cause,
        ofRecord record = .error (.malformed cause)) := by
  intro record
  have escapes : ofRecord record = .error (.noItems (.int 5)) := by rfl
  refine ⟨escapes, ?_⟩
  rw [escapes]
  rintro (⟨draft, read⟩ | ⟨cause, malformed⟩)
  · cases read
  · cases malformed

/-! ## Arrows and records -/

theorem exists_describesRow (row : Message) :
    ∃ entry : Value, entry.DescribesRow row := by
  obtain ⟨text, lists⟩ := exists_listsTokens row.tokens
  have directed : (Value.text row.direction.name).Spells row.direction.name := by
    cases row.direction <;> exact ⟨_, rfl, by decide⟩
  have spelled : (Value.text (String.ofList text)).ListsTokens row.tokens := by
    refine .words ?_
    rw [String.toList_ofList]
    exact lists
  exact ⟨.record
    [("dir", .text row.direction.name), ("tokens", .text (String.ofList text))],
    .entry directed rfl spelled⟩

theorem exists_describesRows (rows : List Message) :
    ∃ value : Value, value.DescribesRows rows := by
  obtain ⟨entries, describe⟩ := exists_forall₂ exists_describesRow rows
  exact ⟨.list entries, entries, rfl, describe⟩

theorem exists_describes (name : Value) (preMessages messages : List Message) :
    ∃ record : Value, record.Describes name preMessages messages := by
  obtain ⟨listedPre, describesPre⟩ := exists_describesRows preMessages
  obtain ⟨listed, describes⟩ := exists_describesRows messages
  exact ⟨.record [("name", name), ("preMessages", listedPre), ("messages", listed)],
    .record rfl rfl describesPre describes⟩

/-- Arrows and records spell the same patterns.  Every pattern can be written both ways,
and it is read however its rows are written.  Lines that are read separate or draw rows,
which are the rows of the pattern in their order; any other lines are malformed. -/
theorem arrows_and_records_agree (name : Value) :
    (∀ preMessages messages : List Message, ∃ preLines lines record,
        List.Forall₂ Arrows.Draws preLines preMessages ∧
        List.Forall₂ Arrows.Draws lines messages ∧
          Value.Describes record name preMessages messages) ∧
      (∀ (preMessages messages : List Message)
        (preLines separators lines : List String),
        List.Forall₂ Arrows.Draws preLines preMessages →
        List.Forall₂ Arrows.Draws lines messages →
        (separators = [Arrows.separator] ∨ preMessages = [] ∧ separators = []) →
          Arrows.read name (.list ((preLines ++ separators ++ lines).map .text)) =
            .ok (.ofRows name preMessages messages)) ∧
      (∀ (preMessages messages : List Message) (record : Value),
        record.Describes name preMessages messages →
          ofRecord record = .ok (.ofRows name preMessages messages)) ∧
      ∀ lines : List String,
        (∀ draft, Arrows.read name (.list (lines.map .text)) = .ok draft →
          ∃ preMessages messages, draft = .ofRows name preMessages messages ∧
            List.Forall₂ Arrows.Draws (Arrows.rowLines lines)
              (preMessages ++ messages)) ∧
        ((∃ draft, Arrows.read name (.list (lines.map .text)) = .ok draft) ↔
          ∀ line ∈ lines, Text.stripped line = Arrows.separator ∨ ∃ row,
            Arrows.Draws (Text.stripped line) row) ∧
        ∀ error, Arrows.read name (.list (lines.map .text)) = .error error →
          ∃ cause, error = .malformed cause := by
  refine ⟨?_, ?_, ?_, fun lines => ⟨?_, Arrows.exists_read_iff name lines, ?_⟩⟩
  · intro preMessages messages
    obtain ⟨preLines, drawsPre⟩ := exists_forall₂ Arrows.exists_draws preMessages
    obtain ⟨lines, draws⟩ := exists_forall₂ Arrows.exists_draws messages
    obtain ⟨record, describes⟩ := exists_describes name preMessages messages
    exact ⟨preLines, lines, record, drawsPre, draws, describes⟩
  · intro preMessages messages preLines separators lines drawsPre draws divided
    exact Arrows.read_of_draws name drawsPre draws divided
  · intro preMessages messages record describes
    exact ofRecord_of_describes describes
  · intro draft readable
    exact Arrows.exists_rows_of_read readable
  · intro error failed
    exact Arrows.malformed_of_read failed

open Catalog in
/-- A pattern in upper case, with the Kelvin sign for a letter and odd blanks
and commas, both ways. -/
theorem arrows_and_records_agree_on_odd_spellings :
    let record : Value := .record [("name", .text "Odd"),
      ("pre_messages", .list
        [.record [("direction", .text " RECV"), ("tokens", .text "s,")]]),
      ("messages", .list
        [.record [("dir", .text "Send"), ("tokens", .list [.text "PSK", .text " e"])],
        .record [("dir", .text "recv"), ("tokens", .list [])]])]
    let draft := Draft.ofRows (.text "Odd") [recv [s]] [send [psk, e], recv []]
    Arrows.read (.text "Odd")
      (.list (["<-\tS,", "...", "->,ps\u212a , E\u3000", "<-"].map .text)) = .ok draft ∧
      ofRecord record = .ok draft := by
  intro record draft
  obtain ⟨-, drawn, described, -⟩ := arrows_and_records_agree (.text "Odd")
  constructor
  · refine drawn [recv [s]] [send [psk, e], recv []] ["<-\tS,"] ["..."]
      ["->,ps\u212a , E\u3000", "<-"] ?_ ?_ ?_
    · exact .cons ⟨"\tS,".toList, rfl, readTokenText_eq_ok.1 (by rfl)⟩ .nil
    · refine .cons ⟨",ps\u212a , E\u3000".toList, rfl, readTokenText_eq_ok.1 (by rfl)⟩
        (.cons ?_ .nil)
      exact ⟨"".toList, rfl, readTokenText_eq_ok.1 (by rfl)⟩
    · exact .inl rfl
  · refine described [recv [s]] [send [psk, e], recv []] record (.record rfl rfl ?_ ?_)
    · exact readRows_eq_ok.1 (by rfl : readRows .preMessage _ = .ok _)
    · exact readRows_eq_ok.1 (by rfl : readRows .message _ = .ok _)

end Draft

end Noise
