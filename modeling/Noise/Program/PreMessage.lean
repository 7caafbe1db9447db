import Noise.Pattern.Draft
import Noise.Program.Instruction

/-!
# Initialization programs

Before the first message each party hashes the prologue and the public keys of
the pre-messages: its own keys where it would send them, the other party's where
it would receive them.
-/

namespace Noise

/-- The instructions that start a handshake of the pattern. -/
def Pattern.initialization (pattern : Pattern) (role : Role) : Program :=
  .mixHash .prologue :: pattern.preMessages.flatMap fun preMessage =>
    preMessage.keys.kinds.map fun kind =>
      .mixHash (if preMessage.direction.sender = role then .own kind else .peer kind)

/-- Why the pre-messages of a draft give no program. -/
inductive PreMessageError where
  /-- The word names no public key. -/
  | noKey (word : Word Token)
  /-- The responder needs the opposite of a word that is no direction. -/
  | noOpposite (got : Stray)
deriving DecidableEq, Repr

namespace PreMessageError

def message : PreMessageError → String
  | .noKey (.term token) => s!"<{token.label}: '{token.name}'>"
  | .noKey (.stray object) => object.literal
  | .noOpposite got => s!"'{got.kind}' object has no attribute 'swapped'"

end PreMessageError

/-- Whether the role sends what goes in the direction that a word stands for. The
initiator sends only what is marked so; the responder has to know the direction. -/
def Word.isSentBy (role : Role) : Word Direction → Except PreMessageError Bool
  | .term direction => .ok (direction.sender = role)
  | .stray object =>
      match role with
      | .initiator => .ok false
      | .responder => .error (.noOpposite object)

/-- The kind of the public key that a word names. -/
def Word.keyKind : Word Token → Except PreMessageError KeyKind
  | .term (.key kind) => .ok kind
  | word => .error (.noKey word)

/-- The instructions that start a handshake of a draft, as far as its
pre-messages can be followed. -/
def Draft.initialization (draft : Draft) (role : Role) :
    Except PreMessageError Program := do
  let programs ← draft.preMessages.mapM fun row => do
    let sent ← row.direction.isSentBy role
    row.tokens.mapM fun word => do
      let kind ← word.keyKind
      return Instruction.mixHash (if sent then .own kind else .peer kind)
  return .mixHash .prologue :: programs.flatten

end Noise
