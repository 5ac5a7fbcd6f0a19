import HelloNegotiation.Extension

/-!
# The block of extensions in a hello message

On the wire a block is the length of its members and then the members; a block without members is
not written at all. Its length is measured when it is first asked for and kept until a member is
added, so the operations that ask for it also give the block with the length kept.
-/
namespace HelloNegotiation

structure Block where
  members : List Extension
  /-- The length on the wire, if it has been measured. -/
  measured : Option Nat := none

namespace Block

def empty : Block := ⟨[], none⟩

/-- The length on the wire of a block with these members. -/
def wireLength (members : List Extension) : Nat :=
  if members.isEmpty then 0 else 2 + total Extension.wireLength members

def append (b : Block) (e : Extension) : Block := ⟨b.members ++ [e], none⟩

/-- The first member of the given type. -/
def find (b : Block) (type : ExtensionType) : Option Extension :=
  b.members.find? fun e => e.type == type

/-- The first member of the type, unless its data was kept as it is. -/
def alpn (b : Block) : Option Alpn :=
  match b.find .alpn with
  | some (.alpn a) => some a
  | _ => none

/-- The first member of the type, unless its data was kept as it is. -/
def npn (b : Block) : Option Npn :=
  match b.find .npn with
  | some (.npn n) => some n
  | _ => none

def encodedLength (b : Block) : Nat × Block :=
  match b.measured with
  | some n => (n, b)
  | none => (wireLength b.members, { b with measured := some (wireLength b.members) })

/-- What the block writes when its length on the wire is `n`: nothing at all when that is zero, and
nothing but a fault when the members are too long for the length field. -/
def layoutOfLength (members : List Extension) (n : Nat) : Layout :=
  if n = 0 then .empty
  else if n - 2 ≤ Width.two.limit then
    .word (UInt16.ofNat (n - 2)) ++ .concat (members.map Extension.layout)
  else .refuse .encode

def layout (b : Block) : Layout × Block :=
  let (n, b) := b.encodedLength
  (layoutOfLength b.members n, b)

/-- The block written into a place of just its length. -/
def toBytes (b : Block) : Except Fault Bytes × Block :=
  let (n, b) := b.encodedLength
  let (l, b) := b.layout
  match l.write.run (Sink.empty n) with
  | .ok _ s => (.ok s.padded, b)
  | .error f _ => (.error f, b)

/-- The members fill the bytes that the length field claims; what follows is left alone. -/
def read (message : HelloMessage) : EStateM Fault Source Block := do
  let n ← (Source.lift Reader.word).adaptExcept fun _ => .extensionsLength
  let inner ← (Source.lift (Reader.take n.toNat)).adaptExcept fun _ => .extensionsLength
  let members ← Source.within inner (Extension.item message).all
  return ⟨members, none⟩

/-- What the peer makes of the bytes sent to it: no bytes are an empty block. -/
def arrive (message : HelloMessage) (sent : Bytes) (c : Catalogue) : Except Fault Block × Catalogue :=
  if sent.isEmpty then (.ok empty, c)
  else match (read message).run ⟨sent, c⟩ with
    | .ok b s => (.ok b, s.catalogue)
    | .error f s => (.error f, s.catalogue)

/-- Where a length was measured, it is that of the members. -/
def Measured (b : Block) : Prop := ∀ n ∈ b.measured, n = wireLength b.members

theorem measured_append (b : Block) (e : Extension) : (b.append e).Measured := by
  simp [Measured, append]

theorem encodedLength_eq {b : Block} (h : b.Measured) :
    b.encodedLength.1 = wireLength b.members ∧ b.encodedLength.2.members = b.members ∧
      b.encodedLength.2.Measured := by
  obtain ⟨members, measured⟩ := b
  cases measured with
  | none => simp [encodedLength, Measured]
  | some n => exact ⟨h n rfl, rfl, h⟩

end Block

end HelloNegotiation
