import Noise.Pattern.Draft

/-!
# The standard patterns

The one-way patterns, the interactive patterns and their variants with a shared secret,
under the names by which protocols refer to them.
-/

namespace Noise.Catalog

/-- The sender's ephemeral public key. -/
def e : Token := .key .ephemeral

/-- The sender's static public key. -/
def s : Token := .key .static

/-- Agreement between both ephemeral keys. -/
def ee : Token := .dh .ephemeral .ephemeral

/-- Agreement between the initiator's ephemeral and the responder's static key. -/
def es : Token := .dh .ephemeral .static

/-- Agreement between the initiator's static and the responder's ephemeral key. -/
def se : Token := .dh .static .ephemeral

/-- Agreement between both static keys. -/
def ss : Token := .dh .static .static

/-- The shared secret. -/
def psk : Token := .psk

/-- A message from the initiator. -/
def send (tokens : List Token) : Message := { direction := .send, tokens }

/-- A message from the responder. -/
def recv (tokens : List Token) : Message := { direction := .recv, tokens }

/-- A pattern under its name. -/
def entry (name : String) (preMessages : List PreMessage) (messages : List Message) :
    Pattern :=
  { name := .text name, preMessages, messages }

/-- Every standard pattern, in order. -/
def patterns : List Pattern :=
  [entry "N" [⟨.recv, .static⟩] [send [e, es]],
   entry "K" [⟨.send, .static⟩, ⟨.recv, .static⟩] [send [e, es, ss]],
   entry "X" [⟨.recv, .static⟩] [send [e, es, s, ss]],
   entry "NN" [] [send [e], recv [e, ee]],
   entry "NK" [⟨.recv, .static⟩] [send [e, es], recv [e, ee]],
   entry "NX" [] [send [e], recv [e, ee, s, es]],
   entry "KN" [⟨.send, .static⟩] [send [e], recv [e, ee, se]],
   entry "KK" [⟨.send, .static⟩, ⟨.recv, .static⟩] [send [e, es, ss], recv [e, ee, se]],
   entry "KX" [⟨.send, .static⟩] [send [e], recv [e, ee, se, s, es]],
   entry "XN" [] [send [e], recv [e, ee], send [s, se]],
   entry "XK" [⟨.recv, .static⟩] [send [e, es], recv [e, ee], send [s, se]],
   entry "XX" [] [send [e], recv [e, ee, s, es], send [s, se]],
   entry "IN" [] [send [e, s], recv [e, ee, se]],
   entry "IK" [⟨.recv, .static⟩] [send [e, es, s, ss], recv [e, ee, se]],
   entry "IX" [] [send [e, s], recv [e, ee, se, s, es]],
   entry "Npsk0" [⟨.recv, .static⟩] [send [psk, e, es]],
   entry "Kpsk0" [⟨.send, .static⟩, ⟨.recv, .static⟩] [send [psk, e, es, ss]],
   entry "Xpsk1" [⟨.recv, .static⟩] [send [e, es, s, ss, psk]],
   entry "NNpsk0" [] [send [psk, e], recv [e, ee]],
   entry "NNpsk2" [] [send [e], recv [e, ee, psk]],
   entry "NKpsk0" [⟨.recv, .static⟩] [send [psk, e, es], recv [e, ee]],
   entry "NKpsk2" [⟨.recv, .static⟩] [send [e, es], recv [e, ee, psk]],
   entry "NXpsk2" [] [send [e], recv [e, ee, s, es, psk]],
   entry "XNpsk3" [] [send [e], recv [e, ee], send [s, se, psk]],
   entry "XKpsk3" [⟨.recv, .static⟩] [send [e, es], recv [e, ee], send [s, se, psk]],
   entry "XXpsk3" [] [send [e], recv [e, ee, s, es], send [s, se, psk]],
   entry "KNpsk0" [⟨.send, .static⟩] [send [psk, e], recv [e, ee, se]],
   entry "KNpsk2" [⟨.send, .static⟩] [send [e], recv [e, ee, se, psk]],
   entry "KKpsk0" [⟨.send, .static⟩, ⟨.recv, .static⟩]
     [send [psk, e, es, ss], recv [e, ee, se]],
   entry "KKpsk2" [⟨.send, .static⟩, ⟨.recv, .static⟩]
     [send [e, es, ss], recv [e, ee, se, psk]],
   entry "KXpsk2" [⟨.send, .static⟩] [send [e], recv [e, ee, se, s, es, psk]],
   entry "INpsk1" [] [send [e, s, psk], recv [e, ee, se]],
   entry "INpsk2" [] [send [e, s], recv [e, ee, se, psk]],
   entry "IKpsk1" [⟨.recv, .static⟩] [send [e, es, s, ss, psk], recv [e, ee, se]],
   entry "IKpsk2" [⟨.recv, .static⟩] [send [e, es, s, ss], recv [e, ee, se, psk]],
   entry "IXpsk2" [] [send [e, s], recv [e, ee, se, s, es, psk]]]

/-- The names of the patterns in which only the initiator speaks: those of a
single message. -/
def oneWayNames : List String :=
  (patterns.filter fun pattern => pattern.messages.length == 1).map fun pattern =>
    pattern.name.plain

/-- Why a value names no standard pattern. -/
inductive LookupError where
  | unknown (name : Value)
  /-- The value cannot be looked up as a name. -/
  | notAName (got : Value)
deriving Repr

namespace LookupError

def message : LookupError → String
  | .unknown name => s!"Unknown handshake pattern: {name.plain}"
  | .notAName got => s!"unhashable type: '{got.kind}'"

end LookupError

/-- The standard pattern of that name. -/
def lookup (name : Value) : Except LookupError Pattern :=
  if name.isName then
    match patterns.find? (·.name == name) with
    | some pattern => .ok pattern
    | none => .error (.unknown name)
  else .error (.notAName name)

end Noise.Catalog
