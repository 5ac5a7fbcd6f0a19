import HelloNegotiation.Negotiation.Directory
import HelloNegotiation.ProtocolName

/-!
# Negotiators and the calls made to them

A negotiator answers for each of the four roles. It is told the connection, and while it answers
it may change the directory.
-/
namespace HelloNegotiation

/-- What a negotiator answers for the client in ALPN. -/
structure AlpnClient where
  /-- The names to offer, the preferred ones first. -/
  offers : Connection → StateM Directory (List ProtocolName)
  selected : Connection → ProtocolName → StateM Directory Unit

/-- What a negotiator answers for the server in ALPN. -/
structure AlpnServer where
  /-- The choice among the names offered. -/
  choose : Connection → List ProtocolName → StateM Directory (Option ProtocolName)
  selected : Connection → ProtocolName → StateM Directory Unit := fun _ _ => pure ()

/-- What a negotiator answers for the client in NPN. -/
structure NpnClient where
  wants : Connection → StateM Directory Bool := fun _ => pure true
  /-- The choice, which need not be among the names advertised. -/
  choose : Connection → List ProtocolName → StateM Directory (Option ProtocolName)
  selected : Connection → ProtocolName → StateM Directory Unit

/-- What a negotiator answers for the server in NPN. -/
structure NpnServer where
  /-- The names to advertise. -/
  advertises : Connection → StateM Directory (List ProtocolName)
  selected : Connection → ProtocolName → StateM Directory Unit := fun _ _ => pure ()

structure Negotiator where
  alpnClient : AlpnClient
  alpnServer : AlpnServer
  npnClient : NpnClient
  npnServer : NpnServer

/-- How every negotiator behaves. -/
abbrev Roster := NegotiatorId → Negotiator

/-- What a negotiator is asked or told. -/
inductive Callback
  | offers
  | alpnClientSelected (name : ProtocolName)
  | alpnChoose (offered : List ProtocolName)
  | alpnServerSelected (name : ProtocolName)
  | wants
  | npnChoose (advertised : List ProtocolName)
  | npnClientSelected (name : ProtocolName)
  | advertises
  | npnServerSelected (name : ProtocolName)
  deriving DecidableEq

/-- The role in which a negotiator is called. -/
def Callback.role : Callback → Role
  | offers | alpnClientSelected _ => .alpnClient
  | alpnChoose _ | alpnServerSelected _ => .alpnServer
  | wants | npnChoose _ | npnClientSelected _ => .npnClient
  | advertises | npnServerSelected _ => .npnServer

structure Call where
  negotiator : NegotiatorId
  connection : Connection
  callback : Callback
  deriving DecidableEq

end HelloNegotiation
