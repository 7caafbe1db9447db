import Noise.Pattern.Vocabulary

/-!
# Instructions

A handshake is carried out by programs of transcript instructions. An instruction refers
to keys and data by operands, seen from the party that runs it.
-/

namespace Noise

/-- A value that an instruction reads or writes. -/
inductive Operand where
  /-- The running party's key of that kind. -/
  | own (kind : KeyKind)
  /-- The other party's public key of that kind. -/
  | peer (kind : KeyKind)
  | psk
  | prologue
  | payload
deriving DecidableEq, Repr

namespace Operand

def all : List Operand :=
  [.own .ephemeral, .own .static, .peer .ephemeral, .peer .static, .psk, .prologue,
    .payload]

def name : Operand → String
  | .own .ephemeral => "e"
  | .own .static => "s"
  | .peer .ephemeral => "re"
  | .peer .static => "rs"
  | .psk => "psk"
  | .prologue => "prologue"
  | .payload => "payload"

def ofName? (name : String) : Option Operand := all.find? (·.name == name)

/-- Every operand is listed. -/
theorem mem_all (operand : Operand) : operand ∈ all := by
  rcases operand with (_ | _) | (_ | _) | _ | _ | _ <;> simp [all]

end Operand

/-- What is mixed into the key. -/
inductive Source where
  | value (operand : Operand)
  /-- The secret shared between one of the running party's keys and a public key. -/
  | dh (ownKey publicKey : Operand)
deriving DecidableEq, Repr

namespace Source

def operands : Source → List Operand
  | .value operand => [operand]
  | .dh ownKey publicKey => [ownKey, publicKey]

def text : Source → String
  | .value operand => operand.name
  | .dh ownKey publicKey => s!"DH({ownKey.name}, {publicKey.name})"

end Source

/-- A step of a handshake program. -/
inductive Instruction where
  /-- Makes the own ephemeral key pair, unless there is one. -/
  | generateEphemeral
  /-- Appends a value to the outgoing message. -/
  | emit (source : Operand)
  /-- Takes that many bytes from the incoming message. A negative length goes
  back in the message. -/
  | parse (target : Operand) (length : Int)
  | mixHash (source : Operand)
  | mixKey (source : Source)
  | mixKeyAndHash (source : Operand)
  /-- Encrypts a value and appends it to the outgoing message. -/
  | authEncrypt (source : Operand)
  /-- Takes that many bytes from the incoming message, or all that is left, and decrypts
  them. The text must have the expected length, if one is given. -/
  | authDecrypt (target : Operand) (length expected : Option Int)
  /-- Refuses a public key that is zero or the own key of its kind. -/
  | checkRemoteKey (target : Operand)
  /-- Ends the handshake: keeps its hash and derives the transport ciphers. -/
  | split
deriving DecidableEq, Repr

abbrev Program := List Instruction

namespace Instruction

/-- The operands that an instruction refers to. -/
def operands : Instruction → List Operand
  | .generateEphemeral | .split => []
  | .emit operand | .parse operand _ | .mixHash operand | .mixKeyAndHash operand
  | .authEncrypt operand | .authDecrypt operand _ _ | .checkRemoteKey operand =>
      [operand]
  | .mixKey source => source.operands

/-- The instruction as text. The expected length of a decrypted text is not shown. -/
def text : Instruction → String
  | .generateEphemeral => "GenerateEphemeral()"
  | .emit source => s!"Emit({source.name})"
  | .parse target length => s!"Parse({target.name}, {length})"
  | .mixHash source => s!"MixHash({source.name})"
  | .mixKey source => s!"MixKey({source.text})"
  | .mixKeyAndHash source => s!"MixKeyAndHash({source.name})"
  | .authEncrypt source => s!"AuthEncrypt({source.name})"
  | .authDecrypt target none _ => s!"AuthDecrypt({target.name}, rest)"
  | .authDecrypt target (some length) _ => s!"AuthDecrypt({target.name}, {length})"
  | .checkRemoteKey target => s!"CheckRemoteKey({target.name})"
  | .split => "Split()"

end Instruction

/-- Whether some instruction refers to the operand. -/
def Program.uses (program : Program) (operand : Operand) : Bool :=
  program.any fun instruction => instruction.operands.contains operand

end Noise
