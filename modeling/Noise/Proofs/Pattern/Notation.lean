import Mathlib.Data.List.ReduceOption
import Noise.Pattern.Arrows
import Noise.Pattern.Catalog
import Noise.Proofs.Pattern.Spelling

/-!
# What lines stand for

Each line stands for a row or separates, whatever the lines around it are.  The rows are
divided at the first line that separates; but whether they are divided at all depends on
the separator being there exactly as written.
-/

namespace Noise

/-- The arrow of a direction. -/
def Direction.arrow : Direction → List Char
  | .send => ['-', '>']
  | .recv => ['<', '-']

theorem Direction.isWord_arrow (direction : Direction) :
    Text.IsWord Text.isBlank direction.arrow := by
  constructor
  · cases direction <;> decide
  · cases direction <;> simp [arrow, Text.isBlank, Text.blankRanges]

/-- A line without the blanks around it. -/
def Text.stripped (line : String) : String := String.ofList (Text.trim line.toList)

namespace Arrows

variable {line : String} {row : Message} {sheet : Sheet}

/-! ## Lines -/

/-- A line that draws a row: the arrow of its direction, and after it a text
that lists its tokens. -/
def Draws (line : String) (row : Message) : Prop :=
  ∃ text, line.toList = row.direction.arrow ++ text ∧ ListsTokens text row.tokens

/-- What a line stands for: a row, or none if the line separates. -/
def entry (line : String) : Except Malformed (Option Message) :=
  match Text.trim line.toList with
  | ['.', '.', '.'] => .ok none
  | '-' :: '>' :: tokens =>
      (readTokenText (String.ofList tokens)).map fun tokens =>
        some { direction := .send, tokens }
  | '<' :: '-' :: tokens =>
      (readTokenText (String.ofList tokens)).map fun tokens =>
        some { direction := .recv, tokens }
  | other => .error (.noArrow (String.ofList other))

/-- The sheet with what a line stands for. -/
def Sheet.enter (sheet : Sheet) : Option Message → Sheet
  | none => { sheet with separated := true }
  | some row => sheet.add row

theorem entry_of_separator (separates : Text.stripped line = separator) :
    entry line = .ok none := by
  have text := congrArg String.toList separates
  rw [Text.stripped, String.toList_ofList] at text
  rw [entry, text]
  rfl

/-- Behind an arrow the tokens are read from the rest of the line. -/
theorem entry_of_arrow (direction : Direction) {text : List Char}
    (starts : Text.trim line.toList = direction.arrow ++ text) :
    entry line =
      (readTokenText (String.ofList text)).map fun tokens =>
        some { direction, tokens } := by
  cases direction <;> simp [entry, starts, Direction.arrow]

theorem Sheet.readLine_eq (sheet : Sheet) (line : String) :
    sheet.readLine line = (entry line).map sheet.enter := by
  rw [readLine]
  split
  next separates =>
    rw [entry, separates]
    rfl
  next tokens starts =>
    rw [entry_of_arrow .send starts]
    cases readTokenText (String.ofList tokens) <;> rfl
  next tokens starts =>
    rw [entry_of_arrow .recv starts]
    cases readTokenText (String.ofList tokens) <;> rfl
  · simp [entry, Except.map]

theorem entry_stripped (line : String) : entry (Text.stripped line) = entry line := by
  simp [entry, Text.stripped, Text.trim_trim]

theorem draws_of_arrow (direction : Direction) {text : List Char}
    {found : Option Message} (starts : Text.trim line.toList = direction.arrow ++ text)
    (read : entry line = .ok found) :
    ∃ row, found = some row ∧ Draws (Text.stripped line) row := by
  rw [entry_of_arrow direction starts] at read
  cases listed : readTokenText (String.ofList text) with
  | error cause =>
      rw [listed] at read
      cases read
  | ok tokens =>
      rw [listed] at read
      refine ⟨{ direction, tokens }, (Except.ok.inj read).symm, text, ?_, ?_⟩
      · rw [Text.stripped, String.toList_ofList, starts]
      · rw [readTokenText_eq_ok, String.toList_ofList] at listed
        exact listed

/-- A line that stands for something separates, or draws a row. -/
theorem entry_cases {found : Option Message} (read : entry line = .ok found) :
    Text.stripped line = separator ∧ found = none ∨ ∃ row,
      found = some row ∧ Draws (Text.stripped line) row := by
  have rule := read
  unfold entry at rule
  split at rule
  next separates =>
    refine .inl ⟨?_, (Except.ok.inj rule).symm⟩
    rw [Text.stripped, separates]
    rfl
  next text starts => exact .inr (draws_of_arrow .send starts read)
  next text starts => exact .inr (draws_of_arrow .recv starts read)
  next => cases rule

theorem entry_eq_none : entry line = .ok none ↔ Text.stripped line = separator := by
  constructor
  · intro read
    rcases entry_cases read with ⟨separates, -⟩ | ⟨row, same, -⟩
    · exact separates
    · cases same
  · exact entry_of_separator

theorem entry_eq_some : entry line = .ok (some row) ↔
    Draws (Text.stripped line) row := by
  constructor
  · intro read
    rcases entry_cases read with ⟨-, same⟩ | ⟨other, same, draws⟩
    · cases same
    · obtain rfl := Option.some.inj same
      exact draws
  · rintro ⟨text, starts, lists⟩
    have read : readTokenText (String.ofList text) = .ok row.tokens := by
      rw [readTokenText_eq_ok, String.toList_ofList]
      exact lists
    rw [Text.stripped, String.toList_ofList] at starts
    rw [entry_of_arrow row.direction starts, read]
    rfl

/-- A line that draws a row also does so without the blanks after it. -/
theorem Draws.stripped (draws : Draws line row) : Draws (Text.stripped line) row := by
  obtain ⟨text, starts, words, lists, spells⟩ := draws
  refine ⟨text.rdropWhile Text.isBlank, ?_, words, ?_, spells⟩
  · rw [Text.stripped, String.toList_ofList, starts,
      Text.trim_append row.direction.isWord_arrow]
  · rw [← Text.words_eq_iff, Text.words_rdropWhile, lists.words_eq]
    intro char blank
    rw [isTokenSeparator, blank, Bool.or_true]

/-! ## Sheets -/

theorem Sheet.foldl_enter_of_separated (separated : sheet.separated = true)
    (entries : List (Option Message)) :
    entries.foldl Sheet.enter sheet =
      { sheet with messages := sheet.messages ++ entries.reduceOption } := by
  induction entries generalizing sheet with
  | nil => simp
  | cons found rest ih =>
      cases found with
      | none => simp [enter, ih, ← separated]
      | some row => simp [enter, add, ih, separated]

theorem Sheet.foldl_enter (sheet : Sheet) (unseparated : sheet.separated = false)
    (entries : List (Option Message)) :
    (entries.foldl Sheet.enter sheet).preMessages =
        sheet.preMessages ++ (entries.takeWhile Option.isSome).reduceOption ∧
      (entries.foldl Sheet.enter sheet).messages =
        sheet.messages ++ (entries.dropWhile Option.isSome).reduceOption := by
  induction entries generalizing sheet with
  | nil => simp
  | cons found rest ih =>
      cases found with
      | none => simp [enter, foldl_enter_of_separated]
      | some row =>
          have added :
              sheet.add row =
                { sheet with preMessages := sheet.preMessages ++ [row] } := by
            simp [add, unseparated]
          obtain ⟨pre, later⟩ := ih (sheet.add row) (added ▸ unseparated)
          rw [List.foldl_cons, enter, pre, later, added]
          simp

/-- The draft of what some lines stand for.  If it is divided, then at the first
line that separates. -/
def assemble (name : Value) (divided : Bool) (entries : List (Option Message)) :
    Draft :=
  if divided then
    .ofRows name (entries.takeWhile Option.isSome).reduceOption
      (entries.dropWhile Option.isSome).reduceOption
  else .ofRows name [] entries.reduceOption

/-- Lines are read one by one, and then put together. -/
theorem foldlM_readItem (sheet : Sheet) (lines : List String) :
    (lines.map Value.text).foldlM Sheet.readItem sheet =
      ((lines.mapM entry).map fun entries => entries.foldl Sheet.enter sheet).mapError
        .malformed := by
  induction lines generalizing sheet with
  | nil => rfl
  | cons line rest ih =>
      rw [List.map_cons, List.foldlM_cons, List.mapM_cons, Sheet.readItem,
        Sheet.readLine_eq]
      cases entry line with
      | error cause => rfl
      | ok found =>
          change (rest.map Value.text).foldlM Sheet.readItem (sheet.enter found) = _
          rw [ih]
          cases rest.mapM entry <;> rfl

theorem hasSeparator_lines (lines : List String) :
    hasSeparator (.list (lines.map .text)) = .ok (decide (separator ∈ lines)) := by
  simp only [hasSeparator, Value.items?, List.any_map, Except.ok.injEq]
  rw [Bool.eq_iff_iff, List.any_eq_true, decide_eq_true_eq]
  constructor
  · rintro ⟨line, mem, found⟩
    simp only [Function.comp_apply] at found
    split at found
    next same =>
      cases same
      exact mem
    next => cases found
  · intro mem
    exact ⟨separator, mem, rfl⟩

theorem read_lines (name : Value) (lines : List String) :
    read name (.list (lines.map .text)) =
      ((lines.mapM entry).map (assemble name (decide (separator ∈ lines)))).mapError
        .malformed := by
  rw [read, hasSeparator_lines, ok_bind]
  simp only [Value.items?, Option.getD_some, foldlM_readItem]
  cases lines.mapM entry with
  | error cause => rfl
  | ok entries =>
      simp only [Except.map, Except.mapError, ok_bind, pure_eq_ok, assemble]
      cases decide (separator ∈ lines) with
      | true =>
          obtain ⟨pre, later⟩ := Sheet.foldl_enter { separated := false } rfl entries
          rw [Bool.not_true, pre, later]
          rfl
      | false =>
          rw [Sheet.foldl_enter_of_separated rfl]
          simp

/-! ## Lines that draw rows -/

/-- The lines that do not separate, without the blanks around them. -/
def rowLines (lines : List String) : List String :=
  (lines.map Text.stripped).filter (· ≠ separator)

theorem Draws.ne_separator (draws : Draws line row) : line ≠ separator := by
  rintro rfl
  obtain ⟨text, starts, -⟩ := draws
  cases direction : row.direction
    <;> simp [direction, separator, Direction.arrow] at starts

theorem exists_draws (row : Message) : ∃ line, Draws line row := by
  obtain ⟨text, lists⟩ := exists_listsTokens row.tokens
  exact ⟨String.ofList (row.direction.arrow ++ text), text, String.toList_ofList, lists⟩

/-- Dividing keeps every row and their order. -/
theorem exists_assemble (name : Value) (divided : Bool)
    (entries : List (Option Message)) :
    ∃ preMessages messages,
      assemble name divided entries = .ofRows name preMessages messages ∧
      preMessages ++ messages = entries.reduceOption := by
  cases divided with
  | false => exact ⟨[], entries.reduceOption, rfl, rfl⟩
  | true =>
      refine ⟨_, _, rfl, ?_⟩
      rw [← List.reduceOption_append, List.takeWhile_append_dropWhile]

theorem draws_rowLines {lines : List String} {entries : List (Option Message)}
    (read : List.Forall₂ (fun line found => entry line = .ok found) lines entries) :
    List.Forall₂ Draws (rowLines lines) entries.reduceOption := by
  induction read with
  | nil => exact .nil
  | cons read _ ih =>
      rcases entry_cases read with ⟨separates, rfl⟩ | ⟨row, rfl, draws⟩
      · simpa [rowLines, separates] using ih
      · simpa [rowLines, draws.ne_separator] using And.intro draws ih

theorem mapM_entry_of_draws {lines : List String} {rows : List Message}
    (draws : List.Forall₂ Draws lines rows) :
    lines.mapM entry = .ok (rows.map some) := by
  rw [mapM_eq_ok_iff, List.forall₂_map_right_iff]
  exact draws.imp fun _ _ draws => entry_eq_some.2 draws.stripped

theorem separator_notMem_of_draws {lines : List String} {rows : List Message}
    (draws : List.Forall₂ Draws lines rows) : separator ∉ lines := by
  induction draws with
  | nil => exact List.not_mem_nil
  | cons draws _ ih =>
      exact List.not_mem_cons_of_ne_of_not_mem draws.ne_separator.symm ih

theorem reduceOption_map_some (rows : List Message) :
    (rows.map some).reduceOption = rows := by
  simp [List.reduceOption]

/-- Lines that draw rows are read as those rows, with the separator between pre-messages
and messages.  It may be left out if there are no pre-messages. -/
theorem read_of_draws (name : Value) {preLines separators lines : List String}
    {preMessages messages : List Message}
    (drawsPre : List.Forall₂ Draws preLines preMessages)
    (draws : List.Forall₂ Draws lines messages)
    (divided : separators = [separator] ∨ preMessages = [] ∧ separators = []) :
    read name (.list ((preLines ++ separators ++ lines).map .text)) =
      .ok (.ofRows name preMessages messages) := by
  rw [read_lines, List.mapM_append, List.mapM_append, mapM_entry_of_draws drawsPre,
    mapM_entry_of_draws draws]
  rcases divided with rfl | ⟨rfl, rfl⟩
  · have separates : [separator].mapM entry = .ok [none] := by rfl
    simp [separates, Except.map, Except.mapError, assemble, reduceOption_map_some]
  · cases drawsPre
    simp [separator_notMem_of_draws draws, Except.map, Except.mapError, assemble,
      reduceOption_map_some]

/-- What is read are the rows that the lines draw, in their order. -/
theorem exists_rows_of_read {name : Value} {lines : List String} {draft : Draft}
    (readable : read name (.list (lines.map .text)) = .ok draft) :
    ∃ preMessages messages, draft = .ofRows name preMessages messages ∧
      List.Forall₂ Draws (rowLines lines) (preMessages ++ messages) := by
  rw [read_lines, mapError_eq_ok] at readable
  cases entered : lines.mapM entry with
  | error cause =>
      rw [entered] at readable
      cases readable
  | ok entries =>
      rw [entered] at readable
      obtain ⟨preMessages, messages, same, rows⟩ :=
        exists_assemble name (decide (separator ∈ lines)) entries
      refine ⟨preMessages, messages, (Except.ok.inj readable).symm.trans same, ?_⟩
      rw [rows]
      exact draws_rowLines (mapM_eq_ok_iff.1 entered)

theorem exists_read_iff (name : Value) (lines : List String) :
    (∃ draft, read name (.list (lines.map .text)) = .ok draft) ↔
      ∀ line ∈ lines, Text.stripped line = separator ∨ ∃ row,
        Draws (Text.stripped line) row := by
  have entered : (∃ draft, read name (.list (lines.map .text)) = .ok draft) ↔
      ∃ entries, lines.mapM entry = .ok entries := by
    simp only [read_lines, mapError_eq_ok]
    cases lines.mapM entry <;> simp [Except.map]
  rw [entered, exists_mapM_eq_ok_iff]
  refine forall₂_congr fun line _ => ?_
  simp only [Option.exists, entry_eq_none, entry_eq_some]

theorem malformed_of_read {name : Value} {lines : List String} {error : ReadError}
    (failed : read name (.list (lines.map .text)) = .error error) :
    ∃ cause, error = .malformed cause := by
  rw [read_lines] at failed
  exact malformed_of_mapError failed

/-! ## Lines with blanks around them -/

theorem mapM_entry_stripped (lines : List String) :
    (lines.map Text.stripped).mapM entry = lines.mapM entry := by
  have same : entry ∘ Text.stripped = entry := by
    funext line
    rw [Function.comp_apply, entry_stripped]
  rw [List.mapM_map, same]

/-- Dividing moves no row exactly if the first line separates. -/
theorem assemble_eq_iff (name : Value) {found : Option Message}
    {rest : List (Option Message)} :
    assemble name false (found :: rest) = assemble name true (found :: rest) ↔
      found = none := by
  cases found with
  | none => simp [assemble]
  | some row => simp [assemble, Draft.ofRows]

theorem separator_mem_stripped {lines : List String} (exact : separator ∈ lines) :
    separator ∈ lines.map Text.stripped :=
  List.mem_map.2 ⟨separator, exact, by decide⟩

/-- When the blanks around lines do not count.  Reading gives the same with and without
them just in these cases: the lines cannot be read, the separator is there exactly as
written, no line separates, or the first line does. -/
theorem read_stripped_iff (name : Value) (lines : List String) :
    read name (.list (lines.map .text)) =
      read name (.list ((lines.map Text.stripped).map .text)) ↔
      (∃ error, read name (.list (lines.map .text)) = .error error) ∨
        separator ∈ lines ∨
        (∀ line ∈ lines, Text.stripped line ≠ separator) ∨
          ∃ first rest, lines = first :: rest ∧ Text.stripped first = separator := by
  -- Both times the lines stand for the same; what may differ is whether the rows are
  -- divided.
  simp only [read_lines, mapM_entry_stripped]
  cases readable : lines.mapM entry with
  | error cause => simp [Except.map, Except.mapError]
  | ok entries =>
      simp only [Except.map, Except.mapError, Except.ok.injEq, reduceCtorEq,
        exists_false, false_or]
      by_cases asWritten : separator ∈ lines
      · simp [asWritten, separator_mem_stripped asWritten]
      · by_cases separates : separator ∈ lines.map Text.stripped
        -- Only without blanks is there a separator: rows that come before it move.
        · cases mapM_eq_ok_iff.1 readable with
          | nil => cases separates
          | @cons first found rest others read =>
              have leads : found = none ↔ Text.stripped first = separator := by
                rw [← entry_eq_none, read, Except.ok.injEq]
              simp only [asWritten, separates, decide_true, decide_false,
                assemble_eq_iff, leads, false_or]
              constructor
              · intro strips
                exact .inr ⟨first, rest, rfl, strips⟩
              · rintro (never | ⟨_, _, same, strips⟩)
                · obtain ⟨line, mem, strips⟩ := List.mem_map.1 separates
                  exact absurd strips (never line mem)
                · obtain ⟨rfl, rfl⟩ := List.cons.inj same
                  exact strips
        · have none : ∀ line ∈ lines, Text.stripped line ≠ separator :=
            fun line mem same => separates (List.mem_map.2 ⟨line, mem, same⟩)
          simp only [asWritten, separates, decide_false, true_iff]
          exact .inr (.inl none)

open Catalog in
/-- Blanks around the separator turn a key that is known before the handshake
into its first message. -/
theorem padded_separator_moves_keys :
    let lines := ["<- s", " ... ", "-> e, es"]
    read (.text "N") (.list (lines.map .text)) =
      .ok (.ofRows (.text "N") [] [recv [s], send [e, es]]) ∧
      read (.text "N") (.list ((lines.map Text.stripped).map .text)) =
        .ok (.ofRows (.text "N") [recv [s]] [send [e, es]]) ∧
      read (.text "N") (.list (lines.map .text)) ≠
        read (.text "N") (.list ((lines.map Text.stripped).map .text)) := by
  intro lines
  have padded : read (.text "N") (.list (lines.map .text)) =
      .ok (.ofRows (.text "N") [] [recv [s], send [e, es]]) := by rfl
  have stripped : read (.text "N") (.list ((lines.map Text.stripped).map .text)) =
      .ok (.ofRows (.text "N") [recv [s]] [send [e, es]]) := by rfl
  refine ⟨padded, stripped, ?_⟩
  rw [padded, stripped]
  intro same
  have rows := congrArg Draft.preMessages (Except.ok.inj same)
  cases rows

end Arrows

end Noise
