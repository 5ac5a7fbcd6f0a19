import HelloNegotiation.Negotiation.Negotiator

/-! # Negotiators that follow a script -/
namespace HelloNegotiation

/-- How to choose from the peer's names. -/
inductive Choice
  | ours | theirs | first | last | nothing
  | always (name : ProtocolName)
  deriving DecidableEq

/-- The name that someone with the names `own` chooses from the names of the `peer`. -/
def Choice.pick (own peer : List ProtocolName) : Choice → Option ProtocolName
  | ours => own.find? (peer.contains ·)
  | theirs => peer.find? (own.contains ·)
  | first => peer.head?
  | last => peer.getLast?
  | nothing => none
  | always name => some name

structure Script where
  protocols : List ProtocolName
  choice : Choice := .ours
  wants : Bool := true
  /-- Unbinds the connection in every role whenever it is called. -/
  unbinds : Bool := false
  /-- Has only the answers that no default stands in for. -/
  minimal : Bool := false

namespace Script

def answer {α : Type} (s : Script) (c : Connection) (a : α) : StateM Directory α := fun d =>
  (a, if s.unbinds then d.unbindAll c else d)

def negotiator (s : Script) : Negotiator where
  alpnClient := {
    offers := fun c => s.answer c s.protocols
    selected := fun c _ => s.answer c () }
  alpnServer :=
    let choose := fun c peer => s.answer c (s.choice.pick s.protocols peer)
    if s.minimal then { choose }
    else { choose, selected := fun c _ => s.answer c () }
  npnClient :=
    let choose := fun c peer => s.answer c (s.choice.pick s.protocols peer)
    let selected := fun c _ => s.answer c ()
    if s.minimal then { choose, selected }
    else { choose, selected, wants := fun c => s.answer c s.wants }
  npnServer :=
    let advertises := fun c => s.answer c s.protocols
    if s.minimal then { advertises }
    else { advertises, selected := fun c _ => s.answer c () }

/-- Whether the script has an answer of its own to a call. -/
def answers (s : Script) : Callback → Bool
  | .wants | .alpnServerSelected _ | .npnServerSelected _ => !s.minimal
  | _ => true

end Script

end HelloNegotiation
