import Noise.Cipher.Function
import Noise.Dh.Function
import Noise.Hash.Hkdf
import Noise.Text.Ascii
import Noise.Value

/-!
# Cipher suites

A suite selects a Diffie-Hellman function, a cipher and a hash function. With a pattern
name it makes a protocol name.
-/

namespace Noise

/-- Length of a cipher key in bytes. -/
def keyLength : Nat := 32

/-- The selection of the three primitives of a protocol. -/
structure Suite where
  dh : DhFunction := .curve25519
  cipher : CipherFunction := .chaChaPoly
  hash : HashFunction := .blake2s
deriving DecidableEq, Repr

/-- A place in a suite. -/
inductive Component where
  | dh
  | cipher
  | hash
deriving DecidableEq, Repr

namespace Component

def name : Component → String
  | .dh => "DH function"
  | .cipher => "cipher"
  | .hash => "hash"

end Component

/-- Why a choice of primitives is no suite. -/
inductive SuiteError where
  /-- The component has no primitive of that name. -/
  | unsupported (component : Component) (got : Value)
  /-- The value cannot be looked up as a name. -/
  | notAName (got : Value)
deriving Repr

namespace SuiteError

def message : SuiteError → String
  | .unsupported component got => s!"Unsupported {component.name}: {got.plain}"
  | .notAName got => s!"unhashable type: '{got.kind}'"

end SuiteError

/-- The primitive that a value names. -/
def Component.find {α : Type} (component : Component) (ofName? : String → Option α)
    (value : Value) :
    Except SuiteError α :=
  match value with
  | .text name =>
      match ofName? name with
      | some primitive => .ok primitive
      | none => .error (.unsupported component value)
  | _ =>
      if value.isName then .error (.unsupported component value)
      else .error (.notAName value)

/-- The Diffie-Hellman function that a value names. -/
def DhFunction.ofValue (value : Value) : Except SuiteError DhFunction :=
  Component.dh.find DhFunction.ofName? value

namespace Suite

/-- The suite with the primitives of these names, which are checked in this order. -/
def ofValues (dh cipher hash : Value) : Except SuiteError Suite := do
  let dh ← DhFunction.ofValue dh
  let cipher ← Component.cipher.find CipherFunction.ofName? cipher
  let hash ← Component.hash.find HashFunction.ofName? hash
  return { dh, cipher, hash }

/-- The word that every protocol name starts with. -/
def protocolWord : String := "Noise"

def protocolName (suite : Suite) (pattern : String) : String :=
  protocolWord ++ "_" ++ pattern ++ "_" ++ suite.dh.name ++ "_" ++
    suite.cipher.name ++ "_" ++ suite.hash.name

end Suite

/-- Why a pattern name makes no protocol name. -/
inductive NameError where
  | notText (got : Value)
  | notAscii (error : Text.NotAscii)
deriving Repr

namespace NameError

def message : NameError → String
  | .notText got => s!"sequence item 1: expected str instance, {got.kind} found"
  | .notAscii error => error.message

end NameError

/-- A pattern name as text, checked to make an ASCII protocol name. -/
def Suite.patternName (suite : Suite) (name : Value) : Except NameError String :=
  match name with
  | .text text =>
      match Text.ascii? (suite.protocolName text) with
      | .ok _ => .ok text
      | .error error => .error (.notAscii error)
  | _ => .error (.notText name)

end Noise
