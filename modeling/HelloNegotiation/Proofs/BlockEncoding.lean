import HelloNegotiation.Proofs.BlockWriting
import HelloNegotiation.Proofs.BoundedWriting

/-!
# When extensions can be written, and how long they are then

An extension takes the room that it announces, also when its data is too long for its length field:
want of room is found before that. Of a block the length is looked at first, and nothing is written
when it is too long. What is written is the same whatever stands before it (`writing_fits`).
-/
namespace HelloNegotiation

namespace Layout

/-- A block fails as its body does, or because its length cannot be said. -/
theorem fault_denote_block {width : Width} {body : Layout} {f : Fault}
    (h : f ∈ (block width body).denote.2) : f ∈ body.denote.2 ∨ f = .encode := by
  obtain ⟨⟨xs, e⟩, hd⟩ : ∃ d, body.denote = d := ⟨_, rfl⟩
  cases e with
  | some why =>
    simp only [denote, hd] at h ⊢
    exact .inl h
  | none =>
    simp only [denote, hd] at h
    cases hf : width.field xs.length with
    | none =>
      rw [hf] at h
      exact .inr (Option.some.inj h).symm
    | some field =>
      rw [hf] at h
      cases h

theorem fault_denote_block_of_long {body : Layout} (hlong : 65535 < body.denote.1.length)
    (hbody : ∀ f ∈ body.denote.2, f = .encode) : (block .two body).denote.2 = some .encode := by
  obtain ⟨⟨xs, e⟩, hd⟩ : ∃ d, body.denote = d := ⟨_, rfl⟩
  rw [hd] at hlong hbody
  cases e with
  | some why => simp only [denote, hd, hbody why rfl]
  | none =>
    have hfield : Width.two.field xs.length = none := if_neg (Nat.not_le_of_lt hlong)
    simp only [denote, hd, hfield]

end Layout

namespace Extension

theorem length_denote_dataLayout (x : Extension) :
    x.dataLayout.denote.1.length = x.dataLength := by
  cases x with
  | alpn a =>
    cases a with
    | offered names =>
      show (Layout.block .two (.concat (names.map ProtocolName.layout))).denote.1.length = _
      rw [Layout.length_denote_block, ProtocolName.denote_layouts, ProtocolName.length_wires]
      rfl
    | selected name =>
      show name.layout.denote.1.length = _
      rw [name.denote_layout, name.length_wire]
      rfl
  | npn n =>
    show (Layout.concat (n.names.map ProtocolName.layout)).denote.1.length = _
    rw [ProtocolName.denote_layouts, ProtocolName.length_wires]
    rfl
  | other type data => rfl

theorem fault_denote_dataLayout {x : Extension} {f : Fault} (h : f ∈ x.dataLayout.denote.2) :
    f = .encode := by
  cases x with
  | alpn a =>
    cases a with
    | offered names =>
      have hnames : f ∉ (Layout.concat (names.map ProtocolName.layout)).denote.2 := by
        rw [ProtocolName.denote_layouts]
        nofun
      exact (Layout.fault_denote_block h).resolve_left hnames
    | selected name =>
      have hname : f ∈ name.layout.denote.2 := h
      rw [name.denote_layout] at hname
      cases hname
  | npn n =>
    have hnames : f ∈ (Layout.concat (n.names.map ProtocolName.layout)).denote.2 := h
    rw [ProtocolName.denote_layouts] at hnames
    cases hnames
  | other type data => cases h

/-- What is written of an extension takes the room that it announces, whether or not its data is
too long. -/
theorem length_denote_layout (x : Extension) : x.layout.denote.1.length = x.wireLength := by
  show (Word.bytes x.type.id ++ (Layout.block .two x.dataLayout).denote.1).length = _
  rw [List.length_append, Layout.length_denote_block, length_denote_dataLayout, Word.length_bytes,
    wireLength, ← Nat.add_assoc]
  rfl

theorem fault_denote_layout (x : Extension) :
    x.layout.denote.2 = if 65535 < x.dataLength then some .encode else none := by
  split
  · next hlong =>
    show (Layout.block .two x.dataLayout).denote.2 = _
    rw [← length_denote_dataLayout] at hlong
    exact Layout.fault_denote_block_of_long hlong fun f => fault_denote_dataLayout
  · next hshort => rw [denote_layout (Nat.le_of_not_lt hshort)]

end Extension

namespace Block

theorem layout_of_measured {b : Block} (h : b.Measured) :
    b.layout.1 = layoutOfLength b.members (wireLength b.members) := by
  obtain ⟨hlen, hmembers, -⟩ := encodedLength_eq h
  simp only [layout, hlen, hmembers]

/-- What the members are written as, one after another behind their length. -/
theorem framed_wires (members : List Extension) :
    Word.framed (Entry.wires (members.map Extension.entry)) =
      Word.bytes (UInt16.ofNat (total Extension.wireLength members)) ++
        members.flatMap (·.entry.wire) := by
  rw [Word.framed, Extension.length_wires_entry, Entry.wires, List.flatMap_map]

/-- A block with members that fit is written where there is room for them, and one whose members do
not fit is not written at all. -/
theorem fault_write_layout {b : Block} (h : b.Measured) (hne : b.members ≠ []) (s : Sink) :
    Writer.fault (b.layout.1.write.run s) =
      if 65535 < total Extension.wireLength b.members then some .encode
      else if s.capacity - s.bytes.length < 2 + total Extension.wireLength b.members then
        some .insufficientSpace
      else none := by
  rw [layout_of_measured h]
  split
  · next hlong =>
    rw [layoutOfLength_of_exceeds hlong]
    rfl
  · next hfits =>
    rw [Layout.fault_write, denote_layoutOfLength hne (Nat.le_of_not_lt hfits), Word.length_framed,
      Extension.length_wires_entry]

theorem write_layout_of_exceeds {b : Block} (h : b.Measured)
    (hlong : 65535 < total Extension.wireLength b.members) (s : Sink) :
    b.layout.1.write.run s = .error .encode s := by
  rw [layout_of_measured h, layoutOfLength_of_exceeds hlong]
  rfl

theorem write_layout_of_nil {b : Block} (h : b.Measured) (hnil : b.members = []) (s : Sink) :
    b.layout.1.write.run s = .ok () s := by
  rw [layout_of_measured h, hnil]
  rfl

theorem bytes_write_layout {b : Block} (h : b.Measured) (hne : b.members ≠ []) {s : Sink}
    (hfault : Writer.fault (b.layout.1.write.run s) = none) :
    (Writer.left (b.layout.1.write.run s)).bytes =
      s.bytes ++ (Word.bytes (UInt16.ofNat (total Extension.wireLength b.members)) ++
        b.members.flatMap (·.entry.wire)) := by
  have hle : total Extension.wireLength b.members ≤ 65535 := by
    rw [fault_write_layout h hne] at hfault
    split at hfault
    · cases hfault
    · next hfits => exact Nat.le_of_not_lt hfits
  rw [Layout.bytes_write hfault, layout_of_measured h, denote_layoutOfLength hne hle, framed_wires]

/-- The bytes of a block are just what is written into a place of its length. -/
theorem write_of_toBytes {b : Block} (h : b.Measured) {bs : Bytes} (hbytes : b.toBytes.1 = .ok bs) :
    ∃ t, b.layout.1.write.run (Sink.empty b.encodedLength.1) = .ok () t ∧ t.bytes = bs := by
  rw [fst_toBytes h] at hbytes
  by_cases hnil : b.members = []
  · rw [if_pos hnil] at hbytes
    cases hbytes
    exact ⟨_, write_layout_of_nil h hnil _, rfl⟩
  · rw [if_neg hnil] at hbytes
    split at hbytes
    · next hle =>
      cases hbytes
      have hlen : b.encodedLength.1 = 2 + total Extension.wireLength b.members := by
        rw [(encodedLength_eq h).1, wireLength_of_ne_nil hnil]
      have hfault : Writer.fault (b.layout.1.write.run (Sink.empty b.encodedLength.1)) = none := by
        rw [fault_write_layout h hnil, if_neg (Nat.not_lt_of_le hle), if_neg]
        rw [hlen]
        exact Nat.lt_irrefl _
      have hwritten := bytes_write_layout h hnil hfault
      cases hrun : b.layout.1.write.run (Sink.empty b.encodedLength.1) with
      | ok u t =>
        rw [hrun] at hwritten
        exact ⟨t, rfl, by rw [framed_wires]; exact hwritten⟩
      | error f t =>
        rw [hrun] at hfault
        cases hfault
    · cases hbytes

end Block

/-- How an extension on its own is written: the room is looked at before the length of the data. -/
structure Extension.WrittenTo (x : Extension) (s : Sink) : Prop where
  fault : Writer.fault (x.layout.write.run s) =
    if s.capacity - s.bytes.length < x.wireLength then some .insufficientSpace
    else if 65535 < x.dataLength then some .encode else none
  bytes : Writer.fault (x.layout.write.run s) = none →
    (Writer.left (x.layout.write.run s)).bytes = s.bytes ++ x.entry.wire
  length : x.entry.wire.length = x.wireLength
  /-- Also when it fails, what was there stays there. -/
  kept : s.bytes <+: (Writer.left (x.layout.write.run s)).bytes

theorem Extension.writtenTo (x : Extension) (s : Sink) : x.WrittenTo s := by
  have hfault : Writer.fault (x.layout.write.run s) =
      if s.capacity - s.bytes.length < x.wireLength then some .insufficientSpace
      else if 65535 < x.dataLength then some .encode else none := by
    rw [Layout.fault_write, x.length_denote_layout, x.fault_denote_layout]
  refine ⟨hfault, ?_, by rw [Entry.length_wire, length_data_entry, wireLength],
    x.layout.bytes_prefix_write s⟩
  intro hnone
  have hshort : x.dataLength ≤ 65535 := by
    rw [hfault] at hnone
    split at hnone
    · cases hnone
    · split at hnone
      · cases hnone
      · next hshort => exact Nat.le_of_not_lt hshort
  rw [Layout.bytes_write hnone, denote_layout hshort]

namespace Block

/-- How a block is written: the length of its members is looked at before the room. -/
structure WrittenTo (b : Block) (s : Sink) : Prop where
  empty : b.members = [] → b.layout.1.write.run s = .ok () s
  fault : b.members ≠ [] → Writer.fault (b.layout.1.write.run s) =
    if 65535 < total Extension.wireLength b.members then some .encode
    else if s.capacity - s.bytes.length < 2 + total Extension.wireLength b.members then
      some .insufficientSpace
    else none
  untouched : Writer.fault (b.layout.1.write.run s) = some .encode →
    Writer.left (b.layout.1.write.run s) = s
  bytes : b.members ≠ [] → Writer.fault (b.layout.1.write.run s) = none →
    (Writer.left (b.layout.1.write.run s)).bytes =
      s.bytes ++ (Word.bytes (UInt16.ofNat (total Extension.wireLength b.members)) ++
        b.members.flatMap (·.entry.wire))
  length : b.members ≠ [] →
    (Word.bytes (UInt16.ofNat (total Extension.wireLength b.members)) ++
      b.members.flatMap (·.entry.wire)).length = b.encodedLength.1
  /-- Also when it fails, what was there stays there. -/
  kept : s.bytes <+: (Writer.left (b.layout.1.write.run s)).bytes

theorem writtenTo {b : Block} (h : b.Measured) (s : Sink) : b.WrittenTo s where
  empty hnil := write_layout_of_nil h hnil s
  fault hne := fault_write_layout h hne s
  untouched hencode := by
    by_cases hlong : 65535 < total Extension.wireLength b.members
    · rw [write_layout_of_exceeds h hlong]
      rfl
    · by_cases hnil : b.members = []
      · rw [write_layout_of_nil h hnil]
        rfl
      · rw [fault_write_layout h hnil, if_neg hlong] at hencode
        split at hencode <;> cases hencode
  bytes hne := bytes_write_layout h hne
  length hne := by
    rw [← framed_wires, Word.length_framed, Extension.length_wires_entry, (encodedLength_eq h).1,
      wireLength_of_ne_nil hne]
  kept := b.layout.1.bytes_prefix_write s

theorem toBytes_eq_error_iff {b : Block} (h : b.Measured) (f : Fault) :
    b.toBytes.1 = .error f ↔ f = .encode ∧ 65535 < total Extension.wireLength b.members := by
  rw [fst_toBytes h]
  by_cases hnil : b.members = []
  · simp [hnil]
  · rw [if_neg hnil]
    split
    · next hle => simp [Nat.not_lt_of_le hle]
    · next hlong => simp [Nat.lt_of_not_le hlong, eq_comm]

/-- A block is written just when its members fit behind their length and there is room for both,
and an extension on its own just when there is room for it and its data fits behind its length. The
bytes of a block are wanting only if its members do not fit, and else they are what is written and
nothing more. -/
theorem writing_fits {b : Block} (hb : b.Built) :
    (∀ s, b.WrittenTo s) ∧ (∀ (x : Extension) (s : Sink), x.WrittenTo s) ∧
    b.toBytes.1 ≠ .error .insufficientSpace ∧
    ((∃ f, b.toBytes.1 = .error f) ↔ 65535 < total Extension.wireLength b.members) ∧
    ∀ bs, b.toBytes.1 = .ok bs →
      ∃ t, b.layout.1.write.run (Sink.empty b.encodedLength.1) = .ok () t ∧ t.bytes = bs := by
  have h := hb.measured
  refine ⟨writtenTo h, Extension.writtenTo, ?_, ?_, fun bs => write_of_toBytes h⟩
  · intro hspace
    exact absurd ((toBytes_eq_error_iff h _).mp hspace).1 (by decide)
  · simp only [toBytes_eq_error_iff h, exists_eq_left]

private def selection : Block := (empty.append (.alpn (.selected .h2))).encodedLength.2

/-- A selection of HTTP/2, in a place of its length and in one that is a byte too small. -/
theorem writing_fits_selection :
    selection.Built ∧
    Writer.fault (selection.layout.1.write.run (Sink.empty 9)) = none ∧
    (Writer.left (selection.layout.1.write.run (Sink.empty 9))).bytes =
      [0x00, 0x07, 0x00, 0x10, 0x00, 0x03, 0x02, 0x68, 0x32] ∧
    Writer.fault (selection.layout.1.write.run (Sink.empty 8)) = some .insufficientSpace ∧
    selection.toBytes.1 ≠ .error .insufficientSpace := by
  have hbuilt : selection.Built := (Built.empty.append _).encodedLength
  have hne : selection.members ≠ [] := by decide
  obtain ⟨hwritten, -, hspace, -⟩ := writing_fits hbuilt
  have hfault : Writer.fault (selection.layout.1.write.run (Sink.empty 9)) = none :=
    (hwritten (Sink.empty 9)).fault hne
  exact ⟨hbuilt, hfault, (hwritten (Sink.empty 9)).bytes hne hfault,
    (hwritten (Sink.empty 8)).fault hne, hspace⟩

end Block

end HelloNegotiation
