import HelloNegotiation.Proofs.BlockReading
import HelloNegotiation.Proofs.BlockWriting

/-! # What is written is read back, whatever follows it -/
namespace HelloNegotiation

/-- An extension stays the same on the wire, up to the name of its type. -/
theorem Extension.decoded_entry_beq (x : Extension) : (x.entry.decoded == x) = true := by
  cases x with
  | alpn a => cases a <;> simp [entry, Entry.decoded, BEq.beq, instBEqExtension.beq]
  | npn n =>
    rw [entry, Entry.decoded, Npn.firsts_names]
    simp [BEq.beq, instBEqExtension.beq]
  | other type data =>
    have hdata : (data == data) = true := beq_self_eq_true data
    have htype : (ExtensionType.ofId type.id == type) = true :=
      (ExtensionType.beq_iff _ _).mpr (ExtensionType.id_ofId _)
    show (ExtensionType.ofId type.id == type && data == data) = true
    rw [htype, hdata]
    rfl

namespace Block

theorem decoded_entries_beq (members : List Extension) :
    ((members.map Extension.entry).map Entry.decoded == members) = true := by
  induction members with
  | nil => rfl
  | cons x xs ih =>
    rw [List.map_cons, List.map_cons, List.cons_beq_cons, ih, x.decoded_entry_beq]
    rfl

theorem allowed_entries {message : HelloMessage} {members : List Extension}
    (hsuits : ∀ x ∈ members, x.entry.Suits message)
    (hle : total Extension.wireLength members ≤ 65535) :
    ∀ e ∈ members.map Extension.entry, e.Allowed message := by
  intro e he
  obtain ⟨x, hx, rfl⟩ := List.mem_map.mp he
  refine ⟨hsuits x hx, ?_⟩
  rw [Extension.length_data_entry]
  exact dataLength_le_of_mem hx hle

/-- Entries behind their length are read as what they stand for, and what follows is left. -/
theorem run_read_framed {message : HelloMessage} {c : Catalogue} (hc : c.Reachable)
    {es : List Entry} (hle : (Entry.wires es).length ≤ 65535) (hes : ∀ e ∈ es, e.Allowed message)
    (rest : Bytes) :
    (read message).run ⟨Word.framed (Entry.wires es) ++ rest, c⟩ =
      .ok ⟨es.map Entry.decoded, none⟩ ⟨rest, c.resolveAll (es.map Entry.id)⟩ := by
  have hlen := (Word.toNat_ofNat hle).symm
  have hall := (Extension.run_all_eq_ok_iff hc).mpr ⟨es, rfl, hes, rfl, rfl⟩
  rw [Word.framed, run_read_of_body rest hlen, hall]

/-- A block whose members suit the message and fit behind their length is written, and what is
written is read back as the same members, in any catalogue and whatever follows. -/
theorem read_toBytes {message : HelloMessage} {b : Block} (hb : b.Built) (hne : b.members ≠ [])
    (hsuits : ∀ x ∈ b.members, x.entry.Suits message)
    (hle : total Extension.wireLength b.members ≤ 65535) :
    ∃ bs, b.toBytes.1 = .ok bs ∧
      ∀ (c : Catalogue) (rest : Bytes), c.Reachable →
        ∃ b' d, (read message).run ⟨bs ++ rest, c⟩ = .ok b' ⟨rest, d⟩ ∧
          (b'.members == b.members) = true := by
  refine ⟨Word.framed (Entry.wires (b.members.map Extension.entry)), ?_, ?_⟩
  · rw [fst_toBytes hb.measured, if_neg hne, if_pos hle]
  · intro c rest hc
    have hfits : (Entry.wires (b.members.map Extension.entry)).length ≤ 65535 := by
      rwa [Extension.length_wires_entry]
    refine ⟨_, _, run_read_framed hc hfits (allowed_entries hsuits hle) rest, ?_⟩
    exact decoded_entries_beq b.members

private def offers : Block :=
  ((empty.append (.alpn (.offered [.h2]))).append (.npn .empty)).append
    (.other (.unnamed 0xEEEE) [0x01])

/-- A client hello with an offer, an empty advertisement and an extension of no known type. -/
theorem read_toBytes_offers :
    offers.Built ∧ offers.members ≠ [] ∧
    (∀ x ∈ offers.members, x.entry.Suits .clientHello) ∧
    total Extension.wireLength offers.members ≤ 65535 ∧
    ∃ bs, offers.toBytes.1 = .ok bs ∧
      ∀ (c : Catalogue) (rest : Bytes), c.Reachable →
        ∃ b' d, (read .clientHello).run ⟨bs ++ rest, c⟩ = .ok b' ⟨rest, d⟩ ∧
          (b'.members == offers.members) = true := by
  have hbuilt : offers.Built := ((Built.empty.append _).append _).append _
  have hne : offers.members ≠ [] := by simp [offers, append]
  have hsuits : ∀ x ∈ offers.members, x.entry.Suits .clientHello := by decide
  have hle : total Extension.wireLength offers.members ≤ 65535 := by decide
  exact ⟨hbuilt, hne, hsuits, hle, read_toBytes hbuilt hne hsuits hle⟩

/-- A block that the peer gets just as it is: its members suit the message and say on the wire all
that they say. -/
structure Faithful (message : HelloMessage) (b : Block) : Prop where
  unmeasured : b.measured = none
  suits : ∀ x ∈ b.members, x.entry.Suits message
  decoded : ∀ x ∈ b.members, x.entry.decoded = x

variable {message : HelloMessage} {b : Block}

theorem faithful_empty : empty.Faithful message := by
  refine ⟨rfl, ?_, ?_⟩
  · simp [empty]
  · simp [empty]

theorem Faithful.append (hb : b.Faithful message) {x : Extension} (hsuits : x.entry.Suits message)
    (hdecoded : x.entry.decoded = x) : (b.append x).Faithful message := by
  refine ⟨rfl, ?_, ?_⟩
  · intro y hy
    rcases List.mem_append.mp hy with hy | hy
    · exact hb.suits y hy
    · rwa [List.mem_singleton.mp hy]
  · intro y hy
    rcases List.mem_append.mp hy with hy | hy
    · exact hb.decoded y hy
    · rwa [List.mem_singleton.mp hy]

/-- If it can be written at all, such a block arrives as it was sent. -/
theorem Faithful.arrive (hb : b.Faithful message) {c : Catalogue} (hc : c.Reachable) {bs : Bytes}
    (h : b.toBytes.1 = .ok bs) : (arrive message bs c).1 = .ok b := by
  obtain ⟨members, measured⟩ := b
  obtain ⟨rfl, hsuits, hdecoded⟩ := hb
  have hmeasured : Measured ⟨members, none⟩ := by simp [Measured]
  rw [fst_toBytes hmeasured] at h
  dsimp only at h hsuits hdecoded
  by_cases hnil : members = []
  · rw [if_pos hnil] at h
    cases h
    rw [hnil]
    rfl
  · rw [if_neg hnil] at h
    by_cases hle : total Extension.wireLength members ≤ 65535
    · rw [if_pos hle] at h
      cases h
      have hfits : (Entry.wires (members.map Extension.entry)).length ≤ 65535 := by
        rwa [Extension.length_wires_entry]
      have hread := run_read_framed hc hfits (allowed_entries hsuits hle) []
      have hmembers : (members.map Extension.entry).map Entry.decoded = members := by
        rw [List.map_map]
        exact (List.map_congr_left hdecoded).trans (List.map_id members)
      rw [List.append_nil, hmembers] at hread
      have hsent : (Word.framed (Entry.wires (members.map Extension.entry))).isEmpty = false := rfl
      rw [Block.arrive, hsent, hread]
      rfl
    · rw [if_neg hle] at h
      cases h

end Block

end HelloNegotiation
