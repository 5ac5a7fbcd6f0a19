/-! # The two ways to negotiate a protocol, and the parts a peer can play in them -/
namespace HelloNegotiation

/-- In ALPN the client offers and the server selects; in NPN the server advertises and the
client selects. -/
inductive Mechanism
  | alpn | npn
  deriving DecidableEq, Repr

def Mechanism.label : Mechanism → String
  | alpn => "ALPN"
  | npn => "NPN"

inductive Role
  | alpnClient | alpnServer | npnClient | npnServer
  deriving DecidableEq, Repr

namespace Role

def mechanism : Role → Mechanism
  | alpnClient | alpnServer => .alpn
  | npnClient | npnServer => .npn

def label : Role → String
  | alpnClient => "ALPN client"
  | alpnServer => "ALPN server"
  | npnClient => "NPN client"
  | npnServer => "NPN server"

end Role

end HelloNegotiation
