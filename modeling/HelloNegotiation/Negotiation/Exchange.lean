import HelloNegotiation.Block
import HelloNegotiation.Negotiation.Negotiator

/-!
# The steps of a handshake that negotiate a protocol

The client offers in its hello, the server responds in its own, and the client concludes. A step
asks the negotiator bound to the connection in each role; a role without one is passed over. ALPN
goes before NPN.
-/
namespace HelloNegotiation

/-- What a step works on: the bindings, the extensions of the message it adds to, and the calls it
has made so far, the first one first. -/
structure Exchange where
  directory : Directory
  hello : Block
  calls : List Call

/-- A step that fails leaves what it has done. -/
abbrev Step (α : Type) := EStateM Fault Exchange α

namespace Exchange

def lookup (role : Role) (c : Connection) : Step (Option NegotiatorId) := fun x =>
  .ok (x.directory.lookup role c) x

def append (e : Extension) : Step Unit := fun x => .ok () { x with hello := x.hello.append e }

/-- Makes a call: it is on record before the negotiator answers. -/
def call {α : Type} (n : NegotiatorId) (c : Connection) (callback : Callback)
    (answer : StateM Directory α) : Step α := fun x =>
  let (a, directory) := answer.run x.directory
  .ok a { x with directory, calls := x.calls ++ [⟨n, c, callback⟩] }

variable (roster : Roster) (c : Connection)

def offerAlpn : Step Unit := do
  match ← lookup .alpnClient c with
  | some n => do
    let names ← call n c .offers ((roster n).alpnClient.offers c)
    append (.alpn (.offered names))
  | none => pure ()

def offerNpn : Step Unit := do
  match ← lookup .npnClient c with
  | some n => do
    let wants ← call n c .wants ((roster n).npnClient.wants c)
    if wants then append (.npn .empty)
  | none => pure ()

/-- The client adds its offers to the client hello. -/
def offer : Step Unit := do
  offerAlpn roster c
  offerNpn roster c

/-- The server selects one of the names offered, or the handshake fails. -/
def select (n : NegotiatorId) (offered : List ProtocolName) : Step Unit := do
  let choice ← call n c (.alpnChoose offered) ((roster n).alpnServer.choose c offered)
  match choice with
  | none => throw (.negotiation .alpn)
  | some p =>
    if p ∈ offered then do
      append (.alpn (.selected p))
      call n c (.alpnServerSelected p) ((roster n).alpnServer.selected c p)
    else throw (.abort .fatal .internalError)

/-- The server advertises its names to a client that would like to negotiate. -/
def advertise (client : Block) : Step Unit := do
  match client.npn, ← lookup .npnServer c with
  | some _, some n => do
    let names ← call n c .advertises ((roster n).npnServer.advertises c)
    append (.npn (.ofNames names))
  | _, _ => pure ()

/-- The server answers the client hello in the server hello. -/
def respond (client : Block) : Step Unit := do
  match client.alpn, ← lookup .alpnServer c with
  | some alpn, some n => select roster c n alpn.names
  | _, _ => advertise roster c client

/-- The client takes the server's selection. -/
def takeSelection : Alpn → Step (Option ProtocolName)
  | .offered _ => throw (.abort .fatal .illegalParameter)
  | .selected p => do
    match ← lookup .alpnClient c with
    | none => throw (.abort .fatal .unsupportedExtension)
    | some n => do
      call n c (.alpnClientSelected p) ((roster n).alpnClient.selected c p)
      return some p

/-- The client selects in view of the names advertised. -/
def chooseAdvertised (npn : Npn) : Step (Option ProtocolName) := do
  match ← lookup .npnClient c with
  | none => throw (.abort .fatal .unsupportedExtension)
  | some n => do
    let choice ← call n c (.npnChoose npn.names) ((roster n).npnClient.choose c npn.names)
    match choice with
    | none => throw (.negotiation .npn)
    | some p => do
      call n c (.npnClientSelected p) ((roster n).npnClient.selected c p)
      return some p

/-- The client reads the server hello and has the protocol agreed on, if there is one. -/
def conclude (server : Block) : Step (Option ProtocolName) :=
  match server.alpn with
  | some alpn => takeSelection roster c alpn
  | none => match server.npn with
    | some npn => chooseAdvertised roster c npn
    | none => pure none

/-- Tells the server which protocol the client selected in NPN; says whether anyone was told. -/
def notify (p : ProtocolName) : Step Bool := do
  match ← lookup .npnServer c with
  | some n => do
    call n c (.npnServerSelected p) ((roster n).npnServer.selected c p)
    return true
  | none => return false

end Exchange

end HelloNegotiation
