import Noise.Pattern.Reading

/-!
# Patterns as arrows

A line is an arrow followed by tokens, or the separator between pre-messages
and messages. Lines before the separator are pre-messages; without a separator
every line is a message.
-/

namespace Noise.Arrows

/-- The line between pre-messages and messages. -/
def separator : String := "..."

/-- What has been read: the rows on each side of the separator. -/
structure Sheet where
  separated : Bool
  preMessages : List Message := []
  messages : List Message := []
deriving Repr

namespace Sheet

/-- The sheet with one more row at the end. -/
def add (sheet : Sheet) (row : Message) : Sheet :=
  if sheet.separated then { sheet with messages := sheet.messages ++ [row] }
  else { sheet with preMessages := sheet.preMessages ++ [row] }

/-- The sheet with one more line. -/
def readLine (sheet : Sheet) (line : String) : Except Malformed Sheet :=
  match Text.trim line.toList with
  | ['.', '.', '.'] => .ok { sheet with separated := true }
  | '-' :: '>' :: tokens =>
      (readTokenText (String.ofList tokens)).map fun tokens =>
        sheet.add { direction := .send, tokens }
  | '<' :: '-' :: tokens =>
      (readTokenText (String.ofList tokens)).map fun tokens =>
        sheet.add { direction := .recv, tokens }
  | other => .error (.noArrow (String.ofList other))

/-- The sheet with one more line, given as a value. -/
def readItem (sheet : Sheet) (item : Value) : Except ReadError Sheet :=
  match item with
  | .text line => (sheet.readLine line).mapError .malformed
  | _ => .error (.notText item)

end Sheet

/-- Whether some tail of the text starts with the separator. -/
def containsSeparator : List Char → Bool
  | [] => false
  | char :: rest => separator.toList.isPrefixOf (char :: rest) || containsSeparator rest

/-- Whether the value contains the separator: as an item, exactly as written,
or inside a text. -/
def hasSeparator (lines : Value) : Except ReadError Bool :=
  match lines with
  | .text text => .ok (containsSeparator text.toList)
  | _ =>
      match lines.items? with
      | some items => .ok (items.any fun item => item matches .text "...")
      | none => .error (.noMembers lines)

/-- The draft that the lines describe. -/
def read (name lines : Value) : Except ReadError Draft := do
  let hasSeparator ← hasSeparator lines
  let sheet ←
    ((lines.items?).getD []).foldlM Sheet.readItem { separated := !hasSeparator }
  return Draft.ofRows name sheet.preMessages sheet.messages

end Noise.Arrows
