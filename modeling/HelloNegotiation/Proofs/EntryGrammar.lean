import HelloNegotiation.Extension
import HelloNegotiation.Proofs.Framing
import HelloNegotiation.Proofs.NameSequences

/-!
# The grammar of the entries in a block

An entry is what one extension may look like on the wire. It says more than the extension decoded
from it: an empty offer may stand there without any data, and an advertisement may repeat names.
-/
namespace HelloNegotiation

inductive Entry
  /-- An offer of no names and without any data. -/
  | emptyOffer
  | offer (names : List ProtocolName)
  | selection (name : ProtocolName)
  /-- Names to advertise, some of them perhaps more than once. -/
  | advertisement (names : List ProtocolName)
  | other (id : UInt16) (data : Bytes)

namespace Entry

def id : Entry → UInt16
  | emptyOffer | offer _ | selection _ => ExtensionType.alpn.id
  | advertisement _ => ExtensionType.npn.id
  | other id _ => id

def data : Entry → Bytes
  | emptyOffer => []
  | offer names => Word.framed (ProtocolName.wires names)
  | selection name => name.wire
  | advertisement names => ProtocolName.wires names
  | other _ data => data

def wire (e : Entry) : Bytes := Word.bytes e.id ++ Word.framed e.data

/-- Entries as they stand in a block, one after another. -/
def wires (es : List Entry) : Bytes := es.flatMap wire

/-- Whether an entry may stand in a message: there are offers in the client hello only, and
selections in the others. -/
def Suits (message : HelloMessage) : Entry → Prop
  | emptyOffer | offer _ => message = .clientHello
  | selection _ => message ≠ .clientHello
  | advertisement _ => True
  | other id _ => id ≠ ExtensionType.alpn.id ∧ id ≠ ExtensionType.npn.id

/-- An entry that may stand in a message and whose length field can say how long it is. -/
structure Allowed (message : HelloMessage) (e : Entry) : Prop where
  suits : e.Suits message
  length_le : e.data.length ≤ 65535

/-- The extension that an entry stands for: of names advertised, each where it stands first. -/
def decoded : Entry → Extension
  | emptyOffer => .alpn (.offered [])
  | offer names => .alpn (.offered names)
  | selection name => .alpn (.selected name)
  | advertisement names => .npn (.firsts names)
  | other id data => .other (.ofId id) data

instance (message : HelloMessage) (e : Entry) : Decidable (e.Suits message) := by
  cases e <;> unfold Suits <;> infer_instance

instance (message : HelloMessage) (e : Entry) : Decidable (e.Allowed message) :=
  decidable_of_iff (e.Suits message ∧ e.data.length ≤ 65535)
    ⟨fun h => ⟨h.1, h.2⟩, fun h => ⟨h.1, h.2⟩⟩

/-- Bytes that do not start with an entry, and what is wrong with them: they end within the header,
the header claims more than is left, or the data is not that of an entry. -/
inductive Faulty (message : HelloMessage) : Bytes → Fault → Prop
  | header {bs : Bytes} (nonempty : bs ≠ []) (short : bs.length < 4) : Faulty message bs .decode
  | length {id n : UInt16} {rest : Bytes} (cut : rest.length < n.toNat) :
      Faulty message (Word.bytes id ++ Word.bytes n ++ rest) .extensionsLength
  | data {id n : UInt16} {data : Bytes} (rest : Bytes) (whole : data.length = n.toNat)
      (bad : ∀ e : Entry, e.Allowed message → e.id = id → e.data ≠ data) :
      Faulty message (Word.bytes id ++ Word.bytes n ++ data ++ rest) .decode

theorem Faulty.ne_nil {message : HelloMessage} {bs : Bytes} {f : Fault}
    (h : Faulty message bs f) : bs ≠ [] := by
  cases h with
  | header nonempty => exact nonempty
  | length => simp [Word.bytes]
  | data => simp [Word.bytes]

@[simp] theorem wires_nil : wires [] = [] := rfl

@[simp] theorem wires_cons (e : Entry) (es : List Entry) : wires (e :: es) = e.wire ++ wires es :=
  rfl

@[simp] theorem length_wire (e : Entry) : e.wire.length = 4 + e.data.length := by
  simp only [wire, List.length_append, Word.length_bytes, Word.length_framed]
  omega

end Entry

end HelloNegotiation
