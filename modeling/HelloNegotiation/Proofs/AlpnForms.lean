import HelloNegotiation.Proofs.BlockReading

/-!
# An offer is never taken for a selection

Both forms of ALPN go under one type and neither is marked, but no bytes are those of both
(`Alpn.framed_ne_wire`). So a block with ALPN in it is accepted in the client hello or in an answer
to it, never in both, and a block in which no entry of ALPN is reached is read alike in all
messages (`Block.read_tells_forms_apart`).
-/
namespace HelloNegotiation

namespace Alpn

/-- Bytes behind their length in two bytes are no name behind its length in one. -/
theorem framed_ne_wire (bs : Bytes) (p : ProtocolName) : Word.framed bs ≠ p.wire := by
  intro h
  have hpos := p.length_pos
  have hle := p.length_le
  have hlength : 2 + bs.length = 1 + p.bytes.length := by
    rw [← Word.length_framed, h, ProtocolName.length_wire, ProtocolName.wireLength]
  -- There are too few bytes for a length of two bytes not to begin with zero, as a name never does.
  have hfirst : UInt8.ofNat ((UInt16.ofNat bs.length).toNat / 256) = UInt8.ofNat p.bytes.length :=
    (List.cons.inj h).1
  have hzero : bs.length / 256 = 0 := by omega
  rw [Word.toNat_ofNat (by omega), hzero, ← UInt8.toNat_inj, UInt8.toNat_ofNat',
    UInt8.toNat_ofNat'] at hfirst
  omega

theorem readSelected_ne_ok {bs t t' : Bytes} {a a' : Alpn} (h : readOffered.run bs = .ok a t) :
    readSelected.run bs ≠ .ok a' t' := by
  intro h'
  obtain ⟨p, rfl, -⟩ := on_readSelected_eq_ok_iff.mp (Reader.on_eq_ok_iff.mpr ⟨t', h'⟩)
  rcases on_readOffered_eq_ok_iff.mp (Reader.on_eq_ok_iff.mpr ⟨t, h⟩) with ⟨hnil, -⟩ | ⟨ps, hps, -⟩
  · simp [ProtocolName.wire] at hnil
  · exact framed_ne_wire _ p hps.symm

end Alpn

namespace Entry
variable {message message' : HelloMessage} {e e' : Entry}

theorem npn_ne_alpn : ExtensionType.npn.id ≠ ExtensionType.alpn.id := by decide

theorem Suits.data_of_offer (h : e.Suits .clientHello) (hid : e.id = ExtensionType.alpn.id) :
    e.data = [] ∨ ∃ ps, e.data = Word.framed (ProtocolName.wires ps) := by
  cases e with
  | emptyOffer => exact .inl rfl
  | offer ps => exact .inr ⟨ps, rfl⟩
  | selection p => exact absurd rfl h
  | advertisement ps => exact absurd hid npn_ne_alpn
  | other id data => exact absurd hid h.1

theorem Suits.eq_selection (h : e.Suits message) (hmessage : message ≠ .clientHello)
    (hid : e.id = ExtensionType.alpn.id) : ∃ p, e = .selection p := by
  cases e with
  | emptyOffer => exact absurd h hmessage
  | offer ps => exact absurd h hmessage
  | selection p => exact ⟨p, rfl⟩
  | advertisement ps => exact absurd hid npn_ne_alpn
  | other id data => exact absurd hid h.1

theorem Suits.data_of_selection (h : e.Suits message) (hmessage : message ≠ .clientHello)
    (hid : e.id = ExtensionType.alpn.id) : ∃ p : ProtocolName, e.data = p.wire := by
  obtain ⟨p, rfl⟩ := h.eq_selection hmessage hid
  exact ⟨p, rfl⟩

theorem data_ne_of_offer (h : e.Suits .clientHello) (h' : e'.Suits message)
    (hmessage : message ≠ .clientHello) (hid : e.id = ExtensionType.alpn.id)
    (hid' : e'.id = ExtensionType.alpn.id) : e.data ≠ e'.data := by
  obtain ⟨p, hp⟩ := h'.data_of_selection hmessage hid'
  rw [hp]
  rcases h.data_of_offer hid with hnil | ⟨ps, hps⟩
  · simp [hnil, ProtocolName.wire]
  · rw [hps]
    exact Alpn.framed_ne_wire _ p

/-- No data is that of ALPN both in the client hello and in an answer to it. -/
theorem data_ne_data (hmessage : message = .clientHello ↔ message' ≠ .clientHello)
    (h : e.Suits message) (h' : e'.Suits message') (hid : e.id = ExtensionType.alpn.id)
    (hid' : e'.id = ExtensionType.alpn.id) : e.data ≠ e'.data := by
  by_cases hclient : message = .clientHello
  · subst hclient
    exact data_ne_of_offer h h' (hmessage.mp rfl) hid hid'
  · have hclient' : message' = .clientHello := by
      by_contra hne
      exact hclient (hmessage.mpr hne)
    subst hclient'
    exact (data_ne_of_offer h' h hclient hid' hid).symm

/-- Only the entries of ALPN depend on the message they stand in. -/
theorem Allowed.of_id_ne (h : e.Allowed message) (hid : e.id ≠ ExtensionType.alpn.id) :
    e.Allowed message' := by
  refine ⟨?_, h.length_le⟩
  cases e with
  | emptyOffer | offer | selection => exact absurd rfl hid
  | advertisement => trivial
  | other => exact h.suits

/-- An entry of ALPN is a fault in a message that takes the other form. -/
theorem Allowed.faulty_of_alpn (h : e.Allowed message)
    (hmessage : message = .clientHello ↔ message' ≠ .clientHello)
    (hid : e.id = ExtensionType.alpn.id) (rest : Bytes) :
    Faulty message' (e.wire ++ rest) .decode := by
  have hlen := (Word.toNat_ofNat h.length_le).symm
  rw [wire, Word.framed, ← List.append_assoc]
  refine .data rest hlen ?_
  intro e' h' hid' hdata
  exact data_ne_data hmessage h.suits h'.suits hid (hid'.trans hid) hdata.symm

/-- A fault that does not lie in an entry of ALPN is one in every message. -/
theorem Faulty.of_not_alpn {bs : Bytes} {f : Fault} (h : Faulty message bs f)
    (hbs : ∀ n rest, bs ≠ Word.bytes ExtensionType.alpn.id ++ (Word.bytes n ++ rest)) :
    Faulty message' bs f := by
  cases h with
  | header nonempty short => exact .header nonempty short
  | length cut => exact .length cut
  | @data id n data rest whole bad =>
    refine .data rest whole ?_
    intro e h hid
    have hne : e.id ≠ ExtensionType.alpn.id := by
      intro halpn
      apply hbs n (data ++ rest)
      rw [← halpn, hid]
      simp only [List.append_assoc]
    exact bad e (h.of_id_ne hne) hid

@[simp] theorem wires_append (es es' : List Entry) : wires (es ++ es') = wires es ++ wires es' :=
  List.flatMap_append

theorem id_of_decoded_alpn {a : Alpn} (h : e.decoded = .alpn a) :
    e.id = ExtensionType.alpn.id := by
  cases e with
  | emptyOffer | offer | selection => rfl
  | advertisement | other => cases h

end Entry

namespace Block
variable {message message' : HelloMessage} {c d : Catalogue} {bs rest : Bytes}
  {members : List Extension}

/-- The header of an entry with type number `id` stands within the declared length of a block,
behind entries that can all be read: it is that of another such entry or of the first faulty one. -/
def Reaches (message : HelloMessage) (bs : Bytes) (id : UInt16) : Prop :=
  ∃ (L : UInt16) (es : List Entry) (n : UInt16) (tail rest : Bytes),
    bs = Word.bytes L ++ (Entry.wires es ++ (Word.bytes id ++ (Word.bytes n ++ tail))) ++ rest ∧
    (Entry.wires es ++ (Word.bytes id ++ (Word.bytes n ++ tail))).length = L.toNat ∧
    ∀ e ∈ es, e.Allowed message

theorem outcome_of_alpn (hc : c.Reachable) (hd : d.Reachable)
    (hmessage : message = .clientHello ↔ message' ≠ .clientHello)
    (h : outcome ((read message).run ⟨bs, c⟩) = (.ok members, rest))
    (halpn : ∃ a, Extension.alpn a ∈ members) :
    outcome ((read message').run ⟨bs, d⟩) = (.error .decode, rest) := by
  obtain ⟨L, es, rfl, hlen, hes, rfl⟩ := (outcome_eq_ok_iff hc).mp h
  -- The first entry of ALPN is the first fault: the entries before it are read in any message.
  have hsome : (es.find? (·.id == ExtensionType.alpn.id)).isSome := by
    obtain ⟨a, ha⟩ := halpn
    obtain ⟨e, he, hdecoded⟩ := List.mem_map.mp ha
    rw [List.find?_isSome]
    exact ⟨e, he, beq_iff_eq.mpr (Entry.id_of_decoded_alpn hdecoded)⟩
  obtain ⟨e, he⟩ := Option.isSome_iff_exists.mp hsome
  obtain ⟨hid, before, after, rfl, hbefore⟩ := List.find?_eq_some_iff_append.mp he
  rw [Entry.wires_append, Entry.wires_cons] at hlen ⊢
  refine (outcome_eq_error_iff hd).mpr (.inr ⟨L, before, _, rfl, hlen, ?_, ?_⟩)
  · intro b hb
    have hne : b.id ≠ ExtensionType.alpn.id := by simpa using hbefore b hb
    exact (hes b (List.mem_append_left _ hb)).of_id_ne hne
  · have hallowed := hes e (List.mem_append_right _ List.mem_cons_self)
    exact hallowed.faulty_of_alpn hmessage (beq_iff_eq.mp hid) _

theorem Reaches.of_mem {L : UInt16} {es : List Entry} {tail : Bytes}
    (hlen : (Entry.wires es ++ tail).length = L.toNat) (hes : ∀ e ∈ es, e.Allowed message)
    {e : Entry} (he : e ∈ es) :
    Reaches message (Word.bytes L ++ (Entry.wires es ++ tail) ++ rest) e.id := by
  obtain ⟨before, after, rfl⟩ := List.append_of_mem he
  have hwires : Entry.wires (before ++ e :: after) ++ tail = Entry.wires before ++
      (Word.bytes e.id ++ (Word.bytes (UInt16.ofNat e.data.length) ++
        (e.data ++ (Entry.wires after ++ tail)))) := by
    rw [Entry.wires_append, Entry.wires_cons, Entry.wire, Word.framed]
    simp only [List.append_assoc]
  rw [hwires] at hlen ⊢
  exact ⟨L, before, _, _, rest, rfl, hlen, fun b hb => hes b (List.mem_append_left _ hb)⟩

theorem outcome_of_not_reaches (hc : c.Reachable) (hd : d.Reachable)
    (h : ¬ Reaches message bs ExtensionType.alpn.id) :
    outcome ((read message').run ⟨bs, d⟩) = outcome ((read message).run ⟨bs, c⟩) := by
  obtain ⟨⟨r, rest⟩, hr⟩ : ∃ o, outcome ((read message).run ⟨bs, c⟩) = o := ⟨_, rfl⟩
  rw [hr]
  cases r with
  | ok members =>
    obtain ⟨L, es, rfl, hlen, hes, rfl⟩ := (outcome_eq_ok_iff hc).mp hr
    refine (outcome_eq_ok_iff hd).mpr ⟨L, es, rfl, hlen, ?_, rfl⟩
    rw [← List.append_nil (Entry.wires es)] at hlen h
    intro e he
    refine (hes e he).of_id_ne fun hid => h ?_
    exact hid ▸ Reaches.of_mem hlen hes he
  | error f =>
    refine (outcome_eq_error_iff hd).mpr ?_
    rcases (outcome_eq_error_iff hc).mp hr with hlength | ⟨L, es, tail, rfl, hlen, hes, hfaulty⟩
    · exact .inl hlength
    refine .inr ⟨L, es, tail, rfl, hlen, ?_, ?_⟩
    · intro e he
      refine (hes e he).of_id_ne fun hid => h ?_
      exact hid ▸ Reaches.of_mem hlen hes he
    · refine hfaulty.of_not_alpn fun n after htail => h ?_
      subst htail
      exact ⟨L, es, n, after, rest, rfl, hlen, hes⟩

/-- No bytes are an offer and a selection, so a block with ALPN in it that is read in the client
hello cannot be read in an answer to it, nor the other way round. Where no entry of ALPN is
reached, the message makes no difference. -/
theorem read_tells_forms_apart (hc : c.Reachable) (hd : d.Reachable) (bs : Bytes) :
    (∀ a a' t t', Alpn.readOffered.run bs = .ok a t → Alpn.readSelected.run bs ≠ .ok a' t') ∧
    (∀ message message' members rest, (message = .clientHello ↔ message' ≠ .clientHello) →
      outcome ((read message).run ⟨bs, c⟩) = (.ok members, rest) →
      (∃ a, Extension.alpn a ∈ members) →
      outcome ((read message').run ⟨bs, d⟩) = (.error .decode, rest)) ∧
    (∀ message message', ¬ Reaches message bs ExtensionType.alpn.id →
      outcome ((read message').run ⟨bs, d⟩) = outcome ((read message).run ⟨bs, c⟩)) := by
  refine ⟨?_, ?_, ?_⟩
  · intro a a' t t' h
    exact Alpn.readSelected_ne_ok h
  · intro message message' members rest hmessage h halpn
    exact outcome_of_alpn hc hd hmessage h halpn
  · intro message message' h
    exact outcome_of_not_reaches hc hd h

/-- A block that selects HTTP/2, which a client hello cannot hold. -/
theorem read_tells_forms_apart_h2 :
    Catalogue.initial.Reachable ∧ (Catalogue.initial.resolve 0xEEEE).2.Reachable ∧
    outcome ((read .clientHello).run
      ⟨[0x00, 0x07, 0x00, 0x10, 0x00, 0x03, 0x02, 0x68, 0x32, 0xFF],
        (Catalogue.initial.resolve 0xEEEE).2⟩) = (.error .decode, [0xFF]) := by
  have hinitial := Catalogue.Reachable.initial
  have hgrown := hinitial.resolve 0xEEEE
  have hes : ∀ e ∈ [Entry.selection .h2], e.Allowed .serverHello := by decide
  have hread : outcome ((read .serverHello).run
      ⟨[0x00, 0x07, 0x00, 0x10, 0x00, 0x03, 0x02, 0x68, 0x32, 0xFF], .initial⟩) =
        (.ok [.alpn (.selected .h2)], [0xFF]) :=
    (outcome_eq_ok_iff hinitial).mpr ⟨7, [.selection .h2], rfl, by decide, hes, rfl⟩
  refine ⟨hinitial, hgrown, ?_⟩
  exact (read_tells_forms_apart hinitial hgrown _).2.1 .serverHello .clientHello _ _ (by decide)
    hread ⟨.selected .h2, List.mem_singleton.mpr rfl⟩

end Block

end HelloNegotiation
