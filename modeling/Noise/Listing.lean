import Noise.Protocol

/-!
# The text listing of a protocol

The listing starts with the protocol name. Then come the programs, each under a
title, one instruction a line, and at the end a line that says who sends with
which transport cipher.
-/

namespace Noise.Protocol

/-- A program under its title. -/
def block (indent title : String) (program : Program) : List String :=
  (title ++ ":") :: program.map fun instruction => indent ++ instruction.text

/-- The write and the read program of a step. -/
def stepLines (indent : String) (step : Step) : List String :=
  let mark := if step.isFinal then " [final]" else ""
  block indent s!"write_message_{step.index} ({step.sender.name}){mark}" step.write ++
    block indent s!"read_message_{step.index} ({step.receiver.name}){mark}" step.read

/-- Who sends with which transport cipher. -/
def transportLine (protocol : Protocol) : String :=
  match protocol.oneWaySender with
  | some sender => s!"transport: {sender.name} sends with cipher A"
  | none => "transport: initiator sends with cipher A, responder with cipher B"

def listingLines (protocol : Protocol) (indent : String) : List String :=
  protocol.fullName ::
    block indent "initialize_initiator" (protocol.initialization .initiator) ++
    block indent "initialize_responder" (protocol.initialization .responder) ++
    protocol.steps.flatMap (stepLines indent) ++ [protocol.transportLine]

/-- The listing as one text; every line ends with a line feed. -/
def listing (protocol : Protocol) (indent : String) : String :=
  String.join ((protocol.listingLines indent).map (· ++ "\n"))

end Noise.Protocol
