import HelloNegotiation.Layout
import HelloNegotiation.Reader

/-! # Alerts on the wire, and what a failure tells the caller -/
namespace HelloNegotiation

structure Alert where
  level : Alert.Level
  description : Alert.Description
  deriving DecidableEq, Repr

namespace Alert

/-- Both bytes are read before either is looked at. -/
def read : EStateM Fault Bytes Alert := do
  let level ← Reader.byte.adaptExcept .read
  let description ← Reader.byte.adaptExcept .read
  match Level.ofCode? level, Description.ofCode? description with
  | some l, some d => pure ⟨l, d⟩
  | _, _ => throw .decode

def layout (a : Alert) : Layout := .byte a.level.code ++ .byte a.description.code

/-- The alert that reports a fault to the peer. -/
def ofFault (f : Fault) : Alert := ⟨.fatal, f.alert⟩

/-- What an alert code says. -/
def codeText (code : UInt8) : String :=
  match Description.ofCode? code with
  | some d => d.name
  | none => "unknown alert: " ++ Nat.repr code.toNat

/-- A handshake that ended with an alert code. -/
structure Failure where
  code : UInt8
  category : Category
  message : String
  cause : Option Fault
  deriving DecidableEq, Repr

namespace Failure

/-- The failure behind an alert code. A reason given goes before the message of the cause. -/
def ofCode (code : UInt8) (cause : Option Fault) (reason : Option String) : Failure where
  code := code
  category := ((Description.ofCode? code).map (·.category)).getD .genericFailure
  message := (reason.or (cause.map (·.message))).getD ""
  cause := cause

/-- The failure that a fault of one's own comes to. -/
def ofFault (f : Fault) : Failure := ofCode f.alert.code (some f) none

def description? (f : Failure) : Option Description := Description.ofCode? f.code

def display (f : Failure) : String := codeText f.code ++ " (" ++ f.message ++ ")"

end Failure

end Alert

end HelloNegotiation
