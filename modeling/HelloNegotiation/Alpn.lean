import HelloNegotiation.ExtensionType
import HelloNegotiation.HelloMessage
import HelloNegotiation.ProtocolName

/-!
# Application-layer protocol negotiation

The client offers names in the order it prefers them and the server selects one. Both forms go
under one extension type, and the message they stand in tells them apart: an offer is a list
behind its length, a selection is a single name.
-/
namespace HelloNegotiation

inductive Alpn
  | offered (names : List ProtocolName)
  | selected (name : ProtocolName)
  deriving DecidableEq

namespace Alpn

/-- An offer of UTF-8 names. -/
def ofTexts (texts : List String) : Except Fault Alpn :=
  return .offered (← texts.mapM ProtocolName.ofUtf8)

/-- The selection of a UTF-8 name. -/
def ofText (text : String) : Except Fault Alpn :=
  return .selected (← ProtocolName.ofUtf8 text)

def names : Alpn → List ProtocolName
  | offered names => names
  | selected name => [name]

def selected? : Alpn → Option ProtocolName
  | offered _ => none
  | selected name => some name

/-- An offer may be empty altogether; otherwise its list ends where the bytes end. -/
def readOffered : Reader Alpn := do
  if ← Reader.atEnd then return .offered []
  let n ← Reader.word
  let names ← Reader.list n.toNat ProtocolName.item
  Reader.finish
  return .offered names

def readSelected : Reader Alpn := do
  let name ← ProtocolName.read
  Reader.finish
  return .selected name

def read : HelloMessage → Reader Alpn
  | .clientHello => readOffered
  | .serverHello | .encryptedExtensions => readSelected

def layout : Alpn → Layout
  | offered names => .block .two (.concat (names.map ProtocolName.layout))
  | selected name => name.layout

/-- The bytes the negotiation takes up on the wire, without the header of an extension. -/
def wireLength : Alpn → Nat
  | offered names => 2 + total ProtocolName.wireLength names
  | selected name => name.wireLength

def display (a : Alpn) : String :=
  let id := ExtensionType.alpn.id.toNat
  "Application Layer Protocol Negotiation (ALPN) [0x" ++ Text.Hex.number id ++ "/" ++ Nat.repr id
    ++ "], " ++ match a with
      | offered names => "client protocols: " ++ Text.Quoted.quoteAll (names.map (·.display))
      | selected name => "selected protocol: " ++ name.display

end Alpn

end HelloNegotiation
