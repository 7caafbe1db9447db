import Noise.Program.PreMessage
import Noise.Program.Step

/-!
# Protocols

A protocol is a pattern compiled for a suite and an attacker model: the programs that
each role runs, and the indices that a session goes by.
-/

namespace Noise

/-- A compiled handshake. -/
structure Protocol where
  /-- The pattern in normal form. -/
  pattern : Pattern
  /-- The name of the pattern. -/
  name : String
  suite : Suite
  attacker : AttackerModel
  analysis : Analysis
  /-- The message at which the transport keys are derived. -/
  finalIndex : Nat
  /-- The program that starts the handshake of each role. -/
  initialization : Role → Program
  /-- The programs of every message up to the final one. -/
  steps : List Step

/-- Why a draft does not compile. -/
inductive CompileError where
  | draft (cause : DraftError)
  | name (cause : NameError)
deriving Repr

namespace CompileError

def message : CompileError → String
  | .draft cause => cause.message
  | .name cause => cause.message

end CompileError

namespace Protocol

/-- Compiles a draft. The name is checked last. -/
def compile (draft : Draft) (suite : Suite) (attacker : AttackerModel) :
    Except CompileError Protocol := do
  let pattern ← draft.normalize.mapError .draft
  let analysis := pattern.analysis
  match analysis.finalIndex with
  | none => throw (.draft (.malformed (.noFinalMessage pattern.name)))
  | some finalIndex =>
      let name ← (suite.patternName pattern.name).mapError .name
      return {
        pattern, name, suite, attacker, analysis, finalIndex
        initialization := pattern.initialization
        steps := (pattern.messages.take (finalIndex + 1)).zipIdx.map fun entry =>
          Step.ofMessage suite attacker (.ofAnalysis analysis entry.2) entry.1 }

/-- The protocol name as text. -/
def fullName (protocol : Protocol) : String := protocol.suite.protocolName protocol.name

/-- Whether the pattern uses a shared secret. -/
def hasPsk (protocol : Protocol) : Bool := protocol.analysis.hasPsk

/-- Whether only one party speaks. -/
def isOneWay (protocol : Protocol) : Bool := protocol.pattern.oneWay

/-- The only role that may send in a one-way pattern. -/
def oneWaySender (protocol : Protocol) : Option Role :=
  if protocol.isOneWay then protocol.steps.head?.map (·.sender) else none

/-- Every program that a role may run. -/
def programsFor (protocol : Protocol) (role : Role) : List Program :=
  protocol.initialization role :: protocol.steps.map fun step => step.programFor role

/-- Whether a role ever refers to the operand. -/
def requires (protocol : Protocol) (role : Role) (operand : Operand) : Bool :=
  (protocol.programsFor role).any fun program => program.uses operand

end Protocol

end Noise
