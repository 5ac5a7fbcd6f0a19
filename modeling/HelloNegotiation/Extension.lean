import HelloNegotiation.Alpn
import HelloNegotiation.Npn
import HelloNegotiation.Source

/-!
# Extensions

An extension is a type number, a length and that many bytes of data. The data of the two
negotiations is decoded; that of any other type is kept as it is.
-/
namespace HelloNegotiation

inductive Extension
  | alpn (negotiation : Alpn)
  | npn (negotiation : Npn)
  | other (type : ExtensionType) (data : Bytes)
  deriving BEq

namespace Extension

def type : Extension → ExtensionType
  | alpn _ => .alpn
  | npn _ => .npn
  | other type _ => type

def dataLength : Extension → Nat
  | alpn a => a.wireLength
  | npn n => n.wireLength
  | other _ data => data.length

/-- The bytes the extension takes up on the wire, with its header of four. -/
def wireLength (e : Extension) : Nat := 4 + e.dataLength

def dataLayout : Extension → Layout
  | alpn a => a.layout
  | npn n => n.layout
  | other _ data => .bytes data

def layout (e : Extension) : Layout := e.type.layout ++ .block .two e.dataLayout

/-- Decodes the data of an extension of the given type. -/
def ofData (message : HelloMessage) (type : ExtensionType) (data : Bytes) :
    Except ReadFault Extension :=
  if type == .alpn then (Alpn.read message).on data |>.map alpn
  else if type == .npn then Npn.read.on data |>.map npn
  else .ok (other type data)

/-- An extension whose data cannot be decoded has been read all the same, and its type too. -/
def read (message : HelloMessage) : EStateM Fault Source Extension := do
  let type ← Source.extensionType.adaptExcept fun _ => .decode
  let n ← (Source.lift Reader.word).adaptExcept fun _ => .decode
  let data ← (Source.lift (Reader.take n.toNat)).adaptExcept fun _ => .extensionsLength
  match ofData message type data with
  | .ok e => pure e
  | .error _ => throw .decode

def display : Extension → String
  | alpn a => a.display
  | npn n => n.display
  | other type data =>
    "Unsupported extension " ++ type.name ++ ", data: " ++ Text.Hex.bytes data

/-- Behind a whole header, the length decides before the data does. -/
theorem run_read_header (message : HelloMessage) (i j k l : UInt8) (rest : Bytes) (c : Catalogue) :
    (read message).run ⟨i :: j :: k :: l :: rest, c⟩ =
      match (Reader.take (Word.ofBytes k l).toNat).run rest with
      | .ok data left => match ofData message (c.resolve (Word.ofBytes i j)).1 data with
        | .ok e => .ok e ⟨left, (c.resolve (Word.ofBytes i j)).2⟩
        | .error _ => .error .decode ⟨left, (c.resolve (Word.ofBytes i j)).2⟩
      | .error _ left => .error .extensionsLength ⟨left, (c.resolve (Word.ofBytes i j)).2⟩ := by
  simp only [read, Source.extensionType, EStateM.run_bind, EStateM.run_adaptExcept, Source.run_lift,
    Source.run_resolve, Reader.run_word_cons]
  cases (Reader.take (Word.ofBytes k l).toNat).run rest with
  | error e left => rfl
  | ok data left =>
    dsimp only
    cases ofData message (c.resolve (Word.ofBytes i j)).1 data <;> rfl

/-- Too few bytes for a header; a type that is whole is in the catalogue all the same. -/
theorem run_read_short (message : HelloMessage) {s : Source} (h : s.rest.length < 4) :
    (read message).run s = match s.rest with
      | i :: j :: rest => .error .decode ⟨rest, (s.catalogue.resolve (Word.ofBytes i j)).2⟩
      | rest => .error .decode ⟨rest, s.catalogue⟩ := by
  obtain ⟨rest, c⟩ := s
  match rest with
  | [] | [_] | [_, _] | [_, _, _] => rfl
  | _ :: _ :: _ :: _ :: rest =>
    simp only [List.length_cons] at h
    omega

def item (message : HelloMessage) : Item Source Fault Extension where
  read := read message
  shrinks {s t e} h := by
    obtain ⟨rest, c⟩ := s
    match rest with
    | [] | [_] | [_, _] | [_, _, _] => cases h
    | i :: j :: k :: l :: rest =>
      rw [run_read_header] at h
      cases ht : (Reader.take (Word.ofBytes k l).toNat).run rest with
      | error e left =>
        rw [ht] at h
        cases h
      | ok data left =>
        rw [ht] at h
        dsimp only at h
        split at h
        · cases h
          have := congrArg List.length (Reader.append_of_run_take ht).1
          simp only [List.length_append] at this
          simp only [Input.rest, List.length_cons]
          omega
        · cases h

end Extension

end HelloNegotiation
