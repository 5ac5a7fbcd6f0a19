import HelloNegotiation.Proofs.AdvertisedNames
import HelloNegotiation.Proofs.CatalogueReachability
import HelloNegotiation.Proofs.OfferedNames

/-!
# Reading an entry

The data of an extension is accepted when it is that of an entry of the grammar, and what is read
is what the entry stands for (`ofData_eq_ok_iff`). An entry that cannot be read is faulty in one
of three ways, and its fault is the one reported (`run_read_eq_error_iff`).
-/
namespace HelloNegotiation

namespace Alpn

theorem on_readOffered_eq_ok_iff {bs : Bytes} {a : Alpn} :
    readOffered.on bs = .ok a ↔
      bs = [] ∧ a = .offered [] ∨
      ∃ ps, bs = Word.framed (ProtocolName.wires ps) ∧ (ProtocolName.wires ps).length ≤ 65535 ∧
        a = .offered ps := by
  rw [Reader.on_eq_ok_iff]
  constructor
  · intro h
    obtain ⟨t, h⟩ := h
    obtain ⟨-, ps, rfl, ⟨rfl, rfl⟩ | ⟨k, rfl, hlen⟩⟩ := run_readOffered_eq_ok_iff.mp h
    · exact .inl ⟨rfl, rfl⟩
    · exact .inr ⟨ps, (Word.framed_eq hlen).symm, hlen ▸ Word.toNat_le k, rfl⟩
  · intro h
    refine ⟨[], run_readOffered_eq_ok_iff.mpr ?_⟩
    obtain ⟨rfl, rfl⟩ | ⟨ps, rfl, hlen, rfl⟩ := h
    · exact ⟨rfl, [], rfl, .inl ⟨rfl, rfl⟩⟩
    · exact ⟨rfl, ps, rfl, .inr ⟨_, rfl, (Word.toNat_ofNat hlen).symm⟩⟩

theorem on_readSelected_eq_ok_iff {bs : Bytes} {a : Alpn} :
    readSelected.on bs = .ok a ↔ ∃ p : ProtocolName, bs = p.wire ∧ a = .selected p := by
  rw [Reader.on_eq_ok_iff]
  constructor
  · intro h
    obtain ⟨t, h⟩ := h
    obtain ⟨p, left, hname, h⟩ := Reader.run_bind_eq_ok_iff.mp h
    obtain ⟨u, last, hfinish, h⟩ := Reader.run_bind_eq_ok_iff.mp h
    obtain ⟨rfl, rfl⟩ := Reader.run_finish_eq_ok_iff.mp hfinish
    cases h
    refine ⟨p, ?_, rfl⟩
    rw [ProtocolName.of_run_read hname, List.append_nil]
  · intro h
    obtain ⟨p, rfl, rfl⟩ := h
    have hname := ProtocolName.run_read_wire p []
    rw [List.append_nil] at hname
    exact ⟨[], Reader.run_bind_eq_ok_iff.mpr ⟨p, [], hname, rfl⟩⟩

end Alpn

theorem Npn.on_read_eq_ok_iff {bs : Bytes} {n : Npn} :
    read.on bs = .ok n ↔ ∃ ps, bs = ProtocolName.wires ps ∧ n = firsts ps := by
  rw [Reader.on_eq_ok_iff]
  simp only [run_read_eq_ok_iff, exists_eq_left, ofNames_eq_firsts]

namespace Extension

private theorem map_eq_ok_iff {ε α β : Type} {f : α → β} {x : Except ε α} {b : β} :
    x.map f = .ok b ↔ ∃ a, x = .ok a ∧ f a = b := by
  cases x <;> simp [Except.map]

theorem ofData_alpn (message : HelloMessage) (data : Bytes) :
    ofData message (.ofId ExtensionType.alpn.id) data =
      ((Alpn.read message).on data).map alpn := rfl

theorem ofData_npn (message : HelloMessage) (data : Bytes) :
    ofData message (.ofId ExtensionType.npn.id) data = (Npn.read.on data).map npn := rfl

theorem ofData_other (message : HelloMessage) {id : UInt16} (data : Bytes)
    (halpn : id ≠ ExtensionType.alpn.id) (hnpn : id ≠ ExtensionType.npn.id) :
    ofData message (.ofId id) data = .ok (other (.ofId id) data) := by
  rw [ofData, if_neg, if_neg]
  · rwa [ExtensionType.beq_iff, ExtensionType.id_ofId]
  · rwa [ExtensionType.beq_iff, ExtensionType.id_ofId]

/-- Data is accepted when it is that of an entry, and read as what the entry stands for. -/
theorem ofData_eq_ok_iff {message : HelloMessage} {id : UInt16} {data : Bytes} {x : Extension}
    (hlen : data.length ≤ 65535) :
    ofData message (.ofId id) data = .ok x ↔
      ∃ e : Entry, e.Allowed message ∧ e.id = id ∧ e.data = data ∧ e.decoded = x := by
  constructor
  · intro h
    by_cases halpn : id = ExtensionType.alpn.id
    · subst halpn
      rw [ofData_alpn, map_eq_ok_iff] at h
      obtain ⟨a, ha, rfl⟩ := h
      cases message with
      | clientHello =>
        rcases Alpn.on_readOffered_eq_ok_iff.mp ha with ⟨rfl, rfl⟩ | ⟨ps, rfl, -, rfl⟩
        · exact ⟨.emptyOffer, ⟨rfl, hlen⟩, rfl, rfl, rfl⟩
        · exact ⟨.offer ps, ⟨rfl, hlen⟩, rfl, rfl, rfl⟩
      | serverHello =>
        obtain ⟨p, rfl, rfl⟩ := Alpn.on_readSelected_eq_ok_iff.mp ha
        exact ⟨.selection p, ⟨nofun, hlen⟩, rfl, rfl, rfl⟩
      | encryptedExtensions =>
        obtain ⟨p, rfl, rfl⟩ := Alpn.on_readSelected_eq_ok_iff.mp ha
        exact ⟨.selection p, ⟨nofun, hlen⟩, rfl, rfl, rfl⟩
    · by_cases hnpn : id = ExtensionType.npn.id
      · subst hnpn
        rw [ofData_npn, map_eq_ok_iff] at h
        obtain ⟨n, hn, rfl⟩ := h
        obtain ⟨ps, rfl, rfl⟩ := Npn.on_read_eq_ok_iff.mp hn
        exact ⟨.advertisement ps, ⟨trivial, hlen⟩, rfl, rfl, rfl⟩
      · rw [ofData_other message data halpn hnpn] at h
        cases h
        exact ⟨.other id data, ⟨⟨halpn, hnpn⟩, hlen⟩, rfl, rfl, rfl⟩
  · intro h
    obtain ⟨e, he, rfl, rfl, rfl⟩ := h
    obtain ⟨hsuits, -⟩ := he
    cases e with
    | emptyOffer =>
      cases hsuits
      rfl
    | offer ps =>
      cases hsuits
      refine map_eq_ok_iff.mpr ⟨.offered ps, ?_, rfl⟩
      refine Alpn.on_readOffered_eq_ok_iff.mpr (.inr ⟨ps, rfl, ?_, rfl⟩)
      simp only [Entry.data, Word.length_framed] at hlen
      omega
    | selection p =>
      have hread : Alpn.read message = Alpn.readSelected := by
        cases message with
        | clientHello => exact absurd rfl hsuits
        | serverHello | encryptedExtensions => rfl
      refine map_eq_ok_iff.mpr ⟨.selected p, ?_, rfl⟩
      rw [hread]
      exact Alpn.on_readSelected_eq_ok_iff.mpr ⟨p, rfl, rfl⟩
    | advertisement ps =>
      exact map_eq_ok_iff.mpr ⟨.firsts ps, Npn.on_read_eq_ok_iff.mpr ⟨ps, rfl, rfl⟩, rfl⟩
    | other id data => exact ofData_other message data hsuits.1 hsuits.2

/-- The three ways in which bytes can start: too few for a header, with a header that claims more
than there is, or with a header and its data. -/
theorem header_cases (bs : Bytes) :
    bs.length < 4 ∨
    (∃ id n : UInt16, ∃ rest, bs = Word.bytes id ++ Word.bytes n ++ rest ∧ rest.length < n.toNat) ∨
    ∃ id n : UInt16, ∃ data rest, bs = Word.bytes id ++ Word.bytes n ++ data ++ rest ∧
      data.length = n.toNat := by
  rcases Word.length_lt_or_bytes bs with hshort | ⟨id, tail, rfl⟩
  · exact .inl (by omega)
  · rcases Word.length_lt_or_bytes tail with hshort | ⟨n, left, rfl⟩
    · refine .inl ?_
      rw [List.length_append, Word.length_bytes]
      omega
    · rw [← List.append_assoc]
      rcases length_lt_or_split n.toNat left with hcut | ⟨data, rest, rfl, hlen⟩
      · exact .inr (.inl ⟨id, n, left, rfl, hcut⟩)
      · exact .inr (.inr ⟨id, n, data, rest, (List.append_assoc _ _ _).symm, hlen⟩)

section
variable {message : HelloMessage} {c : Catalogue}

theorem run_read_of_cut {id n : UInt16} {rest : Bytes} (h : rest.length < n.toNat) :
    (read message).run ⟨Word.bytes id ++ Word.bytes n ++ rest, c⟩ =
      .error .extensionsLength ⟨rest, (c.resolve id).2⟩ := by
  simp only [Word.bytes, List.cons_append, List.nil_append, run_read_header, Word.ofBytes_bytes,
    Reader.run_take_of_lt h]

theorem run_read_of_data (hc : c.Reachable) {id n : UInt16} {data : Bytes} (rest : Bytes)
    (h : data.length = n.toNat) :
    (read message).run ⟨Word.bytes id ++ Word.bytes n ++ data ++ rest, c⟩ =
      match ofData message (.ofId id) data with
      | .ok x => .ok x ⟨rest, (c.resolve id).2⟩
      | .error _ => .error .decode ⟨rest, (c.resolve id).2⟩ := by
  have htake : (Reader.take n.toNat).run (data ++ rest) = .ok data rest :=
    Reader.run_take_eq_ok_iff.mpr ⟨rfl, h⟩
  rw [← hc.fst_resolve id]
  cases hdata : ofData message (c.resolve id).1 data <;>
    simp only [Word.bytes, List.cons_append, List.nil_append, run_read_header, Word.ofBytes_bytes,
      htake, hdata]

/-- An entry is read from where it stands, and nothing behind it. -/
theorem run_read_wire (hc : c.Reachable) {e : Entry} (he : e.Allowed message) (rest : Bytes) :
    (read message).run ⟨e.wire ++ rest, c⟩ = .ok e.decoded ⟨rest, (c.resolve e.id).2⟩ := by
  have hlen := (Word.toNat_ofNat he.length_le).symm
  have hdata : ofData message (.ofId e.id) e.data = .ok e.decoded :=
    (ofData_eq_ok_iff he.length_le).mpr ⟨e, he, rfl, rfl, rfl⟩
  rw [Entry.wire, Word.framed, ← List.append_assoc, run_read_of_data hc rest hlen, hdata]

/-- What is read is an entry where it stands. -/
theorem of_run_read (hc : c.Reachable) {bs : Bytes} {x : Extension} {t : Source}
    (h : (read message).run ⟨bs, c⟩ = .ok x t) :
    ∃ e : Entry, e.Allowed message ∧ bs = e.wire ++ t.rest ∧ x = e.decoded ∧
      t.catalogue = (c.resolve e.id).2 := by
  rcases header_cases bs with hshort | ⟨id, n, rest, rfl, hcut⟩ | ⟨id, n, data, rest, rfl, hlen⟩
  · rw [run_read_short message (s := ⟨bs, c⟩) hshort] at h
    dsimp only at h
    split at h <;> cases h
  · rw [run_read_of_cut hcut] at h
    cases h
  · rw [run_read_of_data hc rest hlen] at h
    cases hdata : ofData message (.ofId id) data with
    | error f =>
      rw [hdata] at h
      cases h
    | ok y =>
      rw [hdata] at h
      cases h
      obtain ⟨e, he, rfl, rfl, rfl⟩ := (ofData_eq_ok_iff (hlen ▸ Word.toNat_le n)).mp hdata
      refine ⟨e, he, ?_, rfl, rfl⟩
      rw [Entry.wire, Word.framed_eq hlen]
      simp only [List.append_assoc]

/-- Reading fails with just the fault of the bytes. -/
theorem run_read_eq_error_iff (hc : c.Reachable) {bs : Bytes} {f : Fault} (hbs : bs ≠ []) :
    (∃ t, (read message).run ⟨bs, c⟩ = .error f t) ↔ Entry.Faulty message bs f := by
  constructor
  · intro h
    obtain ⟨t, h⟩ := h
    rcases header_cases bs with hshort | ⟨id, n, rest, rfl, hcut⟩ | ⟨id, n, data, rest, rfl, hlen⟩
    · rw [run_read_short message (s := ⟨bs, c⟩) hshort] at h
      dsimp only at h
      split at h
      · cases h
        exact .header hbs hshort
      · cases h
        exact .header hbs hshort
    · rw [run_read_of_cut hcut] at h
      cases h
      exact .length hcut
    · rw [run_read_of_data hc rest hlen] at h
      have hle := hlen ▸ Word.toNat_le n
      cases hdata : ofData message (.ofId id) data with
      | ok y =>
        rw [hdata] at h
        cases h
      | error g =>
        rw [hdata] at h
        cases h
        refine .data rest hlen ?_
        intro e he hid he'
        rw [(ofData_eq_ok_iff hle).mpr ⟨e, he, hid, he', rfl⟩] at hdata
        cases hdata
  · intro h
    cases h with
    | header _ hshort =>
      rw [run_read_short message (s := ⟨bs, c⟩) hshort]
      dsimp only
      split
      · exact ⟨_, rfl⟩
      · exact ⟨_, rfl⟩
    | length hcut => exact ⟨_, run_read_of_cut hcut⟩
    | @data id n data rest hlen hbad =>
      rw [run_read_of_data hc rest hlen]
      cases hdata : ofData message (.ofId id) data with
      | error g => exact ⟨_, rfl⟩
      | ok y =>
        obtain ⟨e, he, hid, he', -⟩ := (ofData_eq_ok_iff (hlen ▸ Word.toNat_le n)).mp hdata
        exact absurd he' (hbad e he hid)

end

end Extension

end HelloNegotiation
