import HelloNegotiation.Layout
import HelloNegotiation.Reader
import HelloNegotiation.Text.Latin1
import HelloNegotiation.Text.Quoted
import HelloNegotiation.Text.Utf8

/-!
# Protocol names

A name is any byte string of 1 to 255 bytes; on the wire its length stands before it in one byte.
ALPN takes names for UTF-8 text and NPN for ISO-8859-1.
-/
namespace HelloNegotiation

structure ProtocolName where
  bytes : Bytes
  length_pos : 0 < bytes.length
  length_le : bytes.length ≤ 255
  deriving DecidableEq

namespace ProtocolName

theorem ext_bytes {p q : ProtocolName} (h : p.bytes = q.bytes) : p = q := by
  cases p
  cases q
  cases h
  rfl

def ofBytes (bs : Bytes) : Except Fault ProtocolName :=
  if h : 0 < bs.length ∧ bs.length ≤ 255 then .ok ⟨bs, h.1, h.2⟩ else .error .protocolName

def ofUtf8 (s : String) : Except Fault ProtocolName := ofBytes (Text.Utf8.encode s)

def ofLatin1 (s : String) : Except Fault ProtocolName :=
  match Text.Latin1.encode? s with
  | some bs => ofBytes bs
  | none => .error .protocolName

/-- The names in common use. -/
def wellKnown : List String := ["http/1.1", "h2", "spdy/1", "spdy/2", "spdy/3"]

/-- Whether the name is the UTF-8 form of `s`. -/
def is (p : ProtocolName) (s : String) : Bool := p.bytes == Text.Utf8.encode s

def utf8 (p : ProtocolName) : Except Fault String :=
  match Text.Utf8.decode? p.bytes with
  | some s => .ok s
  | none => .error .decode

def latin1 (p : ProtocolName) : String := Text.Latin1.decode p.bytes

/-- The name as text to look at: what is not UTF-8 in it shows as U+FFFD. -/
def display (p : ProtocolName) : String := Text.Utf8.lossy p.bytes

/-- The name in bytes that were counted in a byte. -/
def ofCounted {n : UInt8} (hn : n ≠ 0) (bs : { bs : Bytes // bs.length = n.toNat }) :
    ProtocolName where
  bytes := bs.val
  length_pos := by
    rw [bs.property]
    exact Nat.pos_of_ne_zero fun h => hn (UInt8.toNat_inj.mp h)
  length_le := by
    rw [bs.property]
    exact Nat.le_of_lt_succ n.toNat_lt

def read : Reader ProtocolName := do
  let n ← Reader.byte
  if hn : n = 0 then throw .invalidData
  else do
    let bs ← Reader.exactly n.toNat
    return ofCounted hn bs

def layout (p : ProtocolName) : Layout := .block .one (.bytes p.bytes)

/-- The name as it stands on the wire. -/
def wire (p : ProtocolName) : Bytes := UInt8.ofNat p.bytes.length :: p.bytes

/-- The bytes a name takes up on the wire. -/
def wireLength (p : ProtocolName) : Nat := 1 + p.bytes.length

theorem ofBytes_bytes (p : ProtocolName) : ofBytes p.bytes = .ok p := by
  rw [ofBytes, dif_pos ⟨p.length_pos, p.length_le⟩]

theorem bytes_of_ofBytes {bs : Bytes} {p : ProtocolName} (h : ofBytes bs = .ok p) :
    p.bytes = bs := by
  unfold ofBytes at h
  split at h
  · cases h
    rfl
  · cases h

/-- Every byte string is the text of the name that holds it. -/
theorem ofLatin1_latin1 (p : ProtocolName) : ofLatin1 p.latin1 = .ok p := by
  rw [ofLatin1, latin1, Text.Latin1.encode?_decode]
  exact p.ofBytes_bytes

@[simp] theorem length_wire (p : ProtocolName) : p.wire.length = p.wireLength := by
  simp [wire, wireLength, Nat.add_comm]

/-- What is written is the name as it stands on the wire. -/
theorem denote_layout (p : ProtocolName) : p.layout.denote = (p.wire, none) := by
  have short : p.bytes.length ≤ Width.one.limit := p.length_le
  simp only [layout, Layout.denote, Width.field, if_pos short]
  rfl

@[simp] theorem run_read_nil : read.run [] = .error .insufficientBytes [] := rfl

@[simp] theorem run_read_zero (rest : Bytes) : read.run (0 :: rest) = .error .invalidData rest := rfl

theorem run_read_cons {n : UInt8} (hn : n ≠ 0) (rest : Bytes) : read.run (n :: rest) =
    match (Reader.exactly n.toNat).run rest with
    | .ok bs left => .ok (ofCounted hn bs) left
    | .error e left => .error e left := by
  simp only [read, EStateM.run_bind, Reader.run_byte_cons, dif_neg hn]
  cases (Reader.exactly n.toNat).run rest <;> rfl

/-- A name is read from where it stands, and nothing behind it. -/
theorem run_read_wire (p : ProtocolName) (rest : Bytes) :
    read.run (p.wire ++ rest) = .ok p rest := by
  have hpos := p.length_pos
  have hle := p.length_le
  have hlen : p.bytes.length = (UInt8.ofNat p.bytes.length).toNat := by
    rw [UInt8.toNat_ofNat']
    omega
  have hne : UInt8.ofNat p.bytes.length ≠ 0 := by
    intro h
    have : p.bytes.length = 0 := by rw [hlen, h]; rfl
    omega
  rw [wire, List.cons_append, run_read_cons hne, Reader.run_exactly_append ⟨p.bytes, hlen⟩ rest]
  rfl

/-- A name is read only from where it stands. -/
theorem of_run_read {bs rest : Bytes} {p : ProtocolName} (h : read.run bs = .ok p rest) :
    bs = p.wire ++ rest := by
  match bs with
  | [] => cases h
  | n :: bs =>
    by_cases hn : n = 0
    · subst hn
      cases h
    · rw [run_read_cons hn] at h
      cases ht : (Reader.exactly n.toNat).run bs with
      | error e left => rw [ht] at h; cases h
      | ok front left =>
        rw [ht] at h
        cases h
        have hcount : UInt8.ofNat front.val.length = n := by rw [front.property, UInt8.ofNat_toNat]
        rw [Reader.append_of_run_exactly ht]
        show n :: (front.val ++ rest) = UInt8.ofNat front.val.length :: (front.val ++ rest)
        rw [hcount]

def item : Item Bytes ReadFault ProtocolName where
  read := read
  shrinks h := by
    have := congrArg List.length (of_run_read h)
    simp only [List.length_append, length_wire, wireLength] at this
    simp only [Input.rest, id_eq]
    omega

end ProtocolName

end HelloNegotiation
