import Noise.Pattern.Reading

/-!
# Patterns as records

A record names the pattern and lists its rows, each a record of a direction
and its tokens.
-/

namespace Noise

/-- The row of an entry. The direction stands in the field `dir`, or else in the field
`direction`; an entry without either has no direction. -/
def readRow (kind : RowKind) (entry : Value) : Except ReadError Message := do
  match entry with
  | .record fields =>
      match fields.lookup "tokens" with
      | none => throw (.malformed (.rowWithoutTokens kind))
      | some tokens =>
          let direction :=
            (fields.lookup "dir").getD ((fields.lookup "direction").getD .null)
          let direction ← direction.toDirection.mapError .malformed
          let tokens ← readTokens tokens
          return { direction, tokens }
  | _ => throw (.malformed (.rowNotARecord kind entry))

/-- The rows that a value lists. -/
def readRows (kind : RowKind) (value : Value) : Except ReadError (List Message) :=
  match value.items? with
  | some items => items.mapM (readRow kind)
  | none => .error (.noItems value)

/-- The draft that a record describes. Pre-messages stand in the field `preMessages`, or
else in the field `pre_messages`; a record without either has none. -/
def Draft.ofRecord (value : Value) : Except ReadError Draft := do
  match value with
  | .record fields =>
      match fields.lookup "name", fields.lookup "messages" with
      | none, _ => throw (.malformed (.missingField "name"))
      | some _, none => throw (.malformed (.missingField "messages"))
      | some name, some messages =>
          let preMessages :=
            (fields.lookup "preMessages").getD
              ((fields.lookup "pre_messages").getD (.list []))
          let preMessages ← readRows .preMessage preMessages
          let messages ← readRows .message messages
          return Draft.ofRows name preMessages messages
  | _ => throw (.malformed (.notARecord value))

end Noise
