import Noise.Pattern.Analysis
import Noise.Program.Instruction
import Noise.Suite

/-!
# Programs of a message

Each token becomes a few instructions for the party that writes the message and a few
for the party that reads it. They depend on the token, on the role that runs them, on
whether the pattern has a shared secret, and, for a static key that is read, on whether
the transcript has a key by then.
-/

namespace Noise

/-- What a protocol defends against. Under an active attacker, public keys are checked
as they are read and a session does not survive a failure. -/
inductive AttackerModel where
  | passive
  | active
deriving DecidableEq, Repr

namespace AttackerModel

def all : List AttackerModel := [.passive, .active]

def name : AttackerModel → String
  | .passive => "passive"
  | .active => "active"

def ofName? (name : String) : Option AttackerModel := all.find? (·.name == name)

end AttackerModel

/-- The agreement between a key of the initiator and a key of the responder, as
a party computes it. -/
def Source.agreement (initiator responder : KeyKind) : Role → Source
  | .initiator => .dh (.own initiator) (.peer responder)
  | .responder => .dh (.own responder) (.peer initiator)

/-- A token that is no agreement. -/
structure NotAgreement where
  token : Token
deriving DecidableEq, Repr

def NotAgreement.message (error : NotAgreement) : String :=
  s!"Not a DH token: {error.token.label}"

namespace Token

/-- The agreement that a token stands for. -/
def agreement (token : Token) (role : Role) : Except NotAgreement Source :=
  match token with
  | .dh initiator responder => .ok (.agreement initiator responder role)
  | _ => .error { token }

/-- The instructions of the party that writes the token. -/
def write (hasPsk : Bool) (role : Role) : Token → Program
  | .key .ephemeral =>
      [.generateEphemeral, .emit (.own .ephemeral), .mixHash (.own .ephemeral)] ++
        if hasPsk then [.mixKey (.value (.own .ephemeral))] else []
  | .key .static => [.authEncrypt (.own .static)]
  | .dh initiator responder => [.mixKey (.agreement initiator responder role)]
  | .psk => [.mixKeyAndHash .psk]

/-- The check of a public key that was read. -/
def check (attacker : AttackerModel) (kind : KeyKind) : Program :=
  match attacker with
  | .passive => []
  | .active => [.checkRemoteKey (.peer kind)]

/-- The instructions of the party that reads the token. -/
def read (suite : Suite) (attacker : AttackerModel) (hasPsk keyed : Bool)
    (role : Role) :
    Token → Program
  | .key .ephemeral =>
      .parse (.peer .ephemeral) suite.dh.keyLength :: check attacker .ephemeral ++
        .mixHash (.peer .ephemeral) ::
          if hasPsk then [.mixKey (.value (.peer .ephemeral))] else []
  | .key .static =>
      let length := suite.dh.keyLength + if keyed then tagLength else 0
      .authDecrypt (.peer .static) (some (length : Nat)) (some suite.dh.keyLength) ::
        check attacker .static
  | .dh initiator responder => [.mixKey (.agreement initiator responder role)]
  | .psk => [.mixKeyAndHash .psk]

end Token

/-- The instructions of the party that reads the tokens. The transcript has a key from
the first token on that gives it one. -/
def readTokenList (suite : Suite) (attacker : AttackerModel) (hasPsk : Bool)
    (role : Role) :
    (keyed : Bool) → List Token → Program
  | _, [] => []
  | keyed, token :: rest =>
      token.read suite attacker hasPsk keyed role ++
        readTokenList suite attacker hasPsk role (keyed || token.bearsKey hasPsk) rest

/-- What the programs of a message depend on besides the message. -/
structure Place where
  /-- The number of the message. -/
  index : Int
  /-- Whether the handshake uses a shared secret. -/
  hasPsk : Bool
  /-- Whether the transcript has a key before the message. -/
  isKeyed : Bool
  /-- Whether the message ends the key exchange. -/
  isFinal : Bool
deriving DecidableEq, Repr

namespace Place

/-- The place of a message among messages that are known only by their numbers: the last
one with the shared secret, the first that can hold ciphertext, and the final one. The
numbers of the first two are negative if there is no such message. -/
def ofNumbers (psk firstEncrypting final index : Int) : Place where
  index
  hasPsk := 0 ≤ psk
  isKeyed := 0 ≤ firstEncrypting && firstEncrypting < index
  isFinal := index == final

/-- The place of the message of that index in a pattern. -/
def ofAnalysis (analysis : Analysis) (index : Nat) : Place where
  index
  hasPsk := analysis.hasPsk
  isKeyed := analysis.isKeyedBefore index
  isFinal := analysis.finalIndex == some index

/-- The place in a pattern is told by the numbers of its analysis. -/
theorem ofNumbers_number (analysis : Analysis) (index : Nat) :
    ofNumbers (Analysis.number analysis.pskIndex)
      (Analysis.number analysis.firstEncryptingIndex)
      (Analysis.number analysis.finalIndex) index = ofAnalysis analysis index := by
  rcases analysis with ⟨_ | psk, _ | first, _ | final⟩ <;>
    simp [ofNumbers, ofAnalysis, Analysis.number, Analysis.hasPsk,
      Analysis.isKeyedBefore] <;> grind

end Place

/-- The programs for one handshake message. -/
structure Step where
  /-- The number of the message. -/
  index : Int
  /-- The party that writes the message. -/
  sender : Role
  /-- Whether the message ends the key exchange. -/
  isFinal : Bool
  /-- The program of the sender. -/
  write : Program
  /-- The program of the receiver. -/
  read : Program
deriving DecidableEq, Repr

namespace Step

/-- The party that reads the message. -/
def receiver (step : Step) : Role := step.sender.other

/-- The program that a role runs. -/
def programFor (step : Step) (role : Role) : Program :=
  if step.sender = role then step.write else step.read

/-- The programs for a message. After the tokens comes the payload, and after the
payload of the final message the split. -/
def ofMessage (suite : Suite) (attacker : AttackerModel) (place : Place)
    (message : Message) : Step :=
  let sender := message.direction.sender
  let ending : Program := if place.isFinal then [.split] else []
  { index := place.index
    sender
    isFinal := place.isFinal
    write := message.tokens.flatMap (Token.write place.hasPsk sender) ++
      .authEncrypt .payload :: ending
    read :=
      readTokenList suite attacker place.hasPsk sender.other place.isKeyed
        message.tokens ++
      .authDecrypt .payload none none :: ending }

end Step

end Noise
