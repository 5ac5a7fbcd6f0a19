import HelloNegotiation.Block
import HelloNegotiation.Proofs.EntryGrammar

/-!
# Writing a block

Each member is written as an entry, so a block that fits behind its length is written as its
members' entries one after another (`fst_toBytes`). The length that a block keeps is always that
of its members, however the block came to be.
-/
namespace HelloNegotiation

theorem ProtocolName.denote_layouts (ps : List ProtocolName) :
    (Layout.concat (ps.map layout)).denote = (wires ps, none) :=
  Layout.denote_concat_map fun p _ => p.denote_layout

namespace Extension

/-- The entry that an extension is written as. -/
def entry : Extension → Entry
  | alpn (.offered names) => .offer names
  | alpn (.selected name) => .selection name
  | npn n => .advertisement n.names
  | other type data => .other type.id data

@[simp] theorem length_data_entry (x : Extension) : x.entry.data.length = x.dataLength := by
  cases x with
  | alpn a =>
    cases a with
    | offered names =>
      simp [entry, Entry.data, dataLength, Alpn.wireLength, ProtocolName.length_wires]
    | selected name => simp [entry, Entry.data, dataLength, Alpn.wireLength]
  | npn n => simp [entry, Entry.data, dataLength, Npn.wireLength, ProtocolName.length_wires]
  | other type data => rfl

theorem length_wires_entry (xs : List Extension) :
    (Entry.wires (xs.map entry)).length = total wireLength xs := by
  induction xs with
  | nil => rfl
  | cons x xs ih => simp [ih, wireLength]

theorem denote_dataLayout {x : Extension} (h : x.dataLength ≤ 65535) :
    x.dataLayout.denote = (x.entry.data, none) := by
  cases x with
  | alpn a =>
    cases a with
    | offered names =>
      have hle : (ProtocolName.wires names).length ≤ 65535 := by
        rw [ProtocolName.length_wires]
        simp only [dataLength, Alpn.wireLength] at h
        omega
      exact Layout.denote_block_two (ProtocolName.denote_layouts names) hle
    | selected name => exact name.denote_layout
  | npn n => exact ProtocolName.denote_layouts n.names
  | other type data => rfl

/-- An extension whose data fits behind its length is written as its entry. -/
theorem denote_layout {x : Extension} (h : x.dataLength ≤ 65535) :
    x.layout.denote = (x.entry.wire, none) := by
  have hid : x.type.id = x.entry.id := by
    cases x with
    | alpn a => cases a <;> rfl
    | npn n => rfl
    | other type data => rfl
  have htype : x.type.layout.denote = (Word.bytes x.entry.id, none) := by
    rw [← hid]
    rfl
  have hdata : x.entry.data.length ≤ 65535 := by rwa [length_data_entry]
  exact Layout.denote_append_eq htype (Layout.denote_block_two (denote_dataLayout h) hdata)

end Extension

namespace Block

/-- The blocks that the operations on blocks lead to. -/
inductive Built : Block → Prop
  | empty : Built empty
  | append {b : Block} (h : Built b) (x : Extension) : Built (b.append x)
  | encodedLength {b : Block} (h : Built b) : Built b.encodedLength.2
  | layout {b : Block} (h : Built b) : Built b.layout.2
  | toBytes {b : Block} (h : Built b) : Built b.toBytes.2
  | read {message : HelloMessage} {s t : Source} {b : Block}
      (h : (Block.read message).run s = .ok b t) : Built b

theorem snd_layout (b : Block) : b.layout.2 = b.encodedLength.2 := rfl

theorem snd_toBytes (b : Block) : b.toBytes.2 = b.encodedLength.2.encodedLength.2 := by
  simp only [toBytes]
  split <;> rfl

theorem measured_of_read {message : HelloMessage} {s t : Source} {b : Block}
    (h : (read message).run s = .ok b t) : b.measured = none := by
  obtain ⟨n, u, -, h⟩ := Reader.run_bind_eq_ok_iff.mp h
  obtain ⟨inner, v, -, h⟩ := Reader.run_bind_eq_ok_iff.mp h
  obtain ⟨members, w, -, h⟩ := Reader.run_bind_eq_ok_iff.mp h
  cases h
  rfl

theorem Built.measured {b : Block} (h : b.Built) : b.Measured := by
  induction h with
  | empty => simp [Measured, Block.empty]
  | append h x ih => exact measured_append _ x
  | encodedLength h ih => exact (encodedLength_eq ih).2.2
  | layout h ih =>
    rw [snd_layout]
    exact (encodedLength_eq ih).2.2
  | toBytes h ih =>
    rw [snd_toBytes]
    exact (encodedLength_eq (encodedLength_eq ih).2.2).2.2
  | read h => simp [Measured, measured_of_read h]

/-- Bytes written into a place of just their length fill it. -/
theorem padded_write {l : Layout} {bs : Bytes} (h : l.denote = (bs, none)) :
    ∃ t : Sink, l.write.run (Sink.empty bs.length) = .ok () t ∧ t.padded = bs := by
  have hroom : (Sink.empty bs.length).bytes.length + l.denote.1.length ≤
      (Sink.empty bs.length).capacity := by
    rw [h]
    simp [Sink.empty, Sink.bytes]
  obtain ⟨t, hcap, hbytes, hrun⟩ := l.run_write_of_room _ hroom
  rw [h] at hbytes hrun
  have hsame : t.bytes = bs := by simpa [Sink.empty, Sink.bytes] using hbytes
  have hsize : t.written.size = t.capacity := by
    rw [← Sink.length_bytes, hsame, hcap]
    rfl
  refine ⟨t, hrun, ?_⟩
  rw [Sink.padded, hsize, hsame]
  simp

theorem dataLength_le_of_mem {members : List Extension} {x : Extension} (hx : x ∈ members)
    (h : total Extension.wireLength members ≤ 65535) : x.dataLength ≤ 65535 := by
  have hle := le_total_of_mem Extension.wireLength hx
  rw [Extension.wireLength] at hle
  omega

theorem denote_members {members : List Extension}
    (h : total Extension.wireLength members ≤ 65535) :
    (Layout.concat (members.map Extension.layout)).denote =
      (Entry.wires (members.map Extension.entry), none) := by
  have hall : ∀ x ∈ members, x.layout.denote = (x.entry.wire, none) := by
    intro x hx
    exact Extension.denote_layout (dataLength_le_of_mem hx h)
  rw [Layout.denote_concat_map hall, Entry.wires, List.flatMap_map]

theorem wireLength_of_ne_nil {members : List Extension} (h : members ≠ []) :
    wireLength members = 2 + total Extension.wireLength members := by
  rw [wireLength, if_neg (by simpa using h)]

theorem layoutOfLength_of_fits {members : List Extension} (hne : members ≠ [])
    (hle : total Extension.wireLength members ≤ 65535) :
    layoutOfLength members (wireLength members) =
      .word (UInt16.ofNat (total Extension.wireLength members)) ++
        .concat (members.map Extension.layout) := by
  have hpos : ¬ 2 + total Extension.wireLength members = 0 := by omega
  rw [wireLength_of_ne_nil hne, layoutOfLength, if_neg hpos, Nat.add_sub_cancel_left]
  exact if_pos hle

theorem layoutOfLength_of_exceeds {members : List Extension}
    (hlt : 65535 < total Extension.wireLength members) :
    layoutOfLength members (wireLength members) = .refuse .encode := by
  have hne : members ≠ [] := by
    intro h
    rw [h] at hlt
    exact absurd hlt (by decide)
  have hpos : ¬ 2 + total Extension.wireLength members = 0 := by omega
  rw [wireLength_of_ne_nil hne, layoutOfLength, if_neg hpos, Nat.add_sub_cancel_left]
  exact if_neg (Nat.not_le_of_lt hlt)

/-- Members that fit are written as their entries behind their length. -/
theorem denote_layoutOfLength {members : List Extension} (hne : members ≠ [])
    (hle : total Extension.wireLength members ≤ 65535) :
    (layoutOfLength members (wireLength members)).denote =
      (Word.framed (Entry.wires (members.map Extension.entry)), none) := by
  rw [layoutOfLength_of_fits hne hle, Word.framed, Extension.length_wires_entry]
  exact Layout.denote_append_eq rfl (denote_members hle)

theorem fst_toBytes_eq_write {b : Block} (h : b.Measured) :
    b.toBytes.1 =
      match (layoutOfLength b.members (wireLength b.members)).write.run
        (Sink.empty (wireLength b.members)) with
      | .ok _ s => .ok s.padded
      | .error f _ => .error f := by
  obtain ⟨hlen, hmembers, hmeasured⟩ := encodedLength_eq h
  obtain ⟨hlen', hmembers', -⟩ := encodedLength_eq hmeasured
  simp only [toBytes, layout, hlen, hlen', hmembers', hmembers]
  cases (layoutOfLength b.members (wireLength b.members)).write.run
    (Sink.empty (wireLength b.members)) <;> rfl

/-- A block without members is written as nothing, another one as its members' entries behind
their length, if they fit. -/
theorem fst_toBytes {b : Block} (h : b.Measured) :
    b.toBytes.1 =
      if b.members = [] then .ok []
      else if total Extension.wireLength b.members ≤ 65535 then
        .ok (Word.framed (Entry.wires (b.members.map Extension.entry)))
      else .error .encode := by
  rw [fst_toBytes_eq_write h]
  by_cases hnil : b.members = []
  · rw [if_pos hnil, hnil]
    rfl
  · rw [if_neg hnil]
    by_cases hle : total Extension.wireLength b.members ≤ 65535
    · have hsize : (Word.framed (Entry.wires (b.members.map Extension.entry))).length =
          wireLength b.members := by
        rw [Word.length_framed, Extension.length_wires_entry, wireLength_of_ne_nil hnil]
      obtain ⟨t, hrun, hpadded⟩ := padded_write (denote_layoutOfLength hnil hle)
      rw [hsize] at hrun
      rw [if_pos hle, hrun]
      exact congrArg Except.ok hpadded
    · rw [if_neg hle, layoutOfLength_of_exceeds (Nat.lt_of_not_le hle)]
      rfl

end Block

end HelloNegotiation
