import HelloNegotiation.Negotiation.Exchange

/-! # Histories: what is done to a directory, one action after another -/
namespace HelloNegotiation

inductive Action
  | bind (role : Role) (c : Connection) (n : NegotiatorId)
  | lookup (role : Role) (c : Connection)
  | unbind (role : Role) (c : Connection)
  | unbindAll (c : Connection)
  | size (role : Role)
  | drop (n : NegotiatorId)
  | offer (c : Connection) (hello : Block)
  | respond (c : Connection) (client server : Block)
  | conclude (c : Connection) (server : Block)
  | notify (c : Connection) (name : ProtocolName)

inductive Outcome
  | done
  | said (yes : Bool)
  | found (n : Option NegotiatorId)
  | counted (n : Nat)
  /-- How a step of a handshake ended, and the message it added to. -/
  | stepped (result : Except Fault (Option ProtocolName)) (hello : Block)

/-- An outcome with the calls made on the way to it. -/
structure Answer where
  outcome : Outcome
  calls : List Call

namespace Action

/-- Runs a step of a handshake that adds to `hello`. -/
def step {α : Type} (s : Step α) (hello : Block) (d : Directory)
    (outcome : Except Fault α → Block → Outcome) : Answer × Directory :=
  match s.run ⟨d, hello, []⟩ with
  | .ok a x => (⟨outcome (.ok a) x.hello, x.calls⟩, x.directory)
  | .error f x => (⟨outcome (.error f) x.hello, x.calls⟩, x.directory)

def perform (roster : Roster) (d : Directory) : Action → Answer × Directory
  | bind role c n =>
    let (yes, d) := d.bind role c n
    (⟨.said yes, []⟩, d)
  | lookup role c => (⟨.found (d.lookup role c), []⟩, d)
  | unbind role c =>
    let (n, d) := d.unbind role c
    (⟨.found n, []⟩, d)
  | unbindAll c => (⟨.done, []⟩, d.unbindAll c)
  | size role => (⟨.counted (d.size role), []⟩, d)
  | drop n => (⟨.done, []⟩, d.drop n)
  | offer c hello =>
    step (Exchange.offer roster c) hello d fun r h => .stepped (r.map fun _ => none) h
  | respond c client server =>
    step (Exchange.respond roster c client) server d fun r h => .stepped (r.map fun _ => none) h
  | conclude c server => step (Exchange.conclude roster c server) .empty d .stepped
  | notify c name =>
    step (Exchange.notify roster c name) .empty d fun r _ => .said (r.toOption.getD false)

/-- Performs the actions in order; every answer is kept. -/
def run (roster : Roster) (d : Directory) : List Action → List Answer × Directory
  | [] => ([], d)
  | a :: actions =>
    let (answer, d) := perform roster d a
    let (answers, d) := run roster d actions
    (answer :: answers, d)

end Action

end HelloNegotiation
