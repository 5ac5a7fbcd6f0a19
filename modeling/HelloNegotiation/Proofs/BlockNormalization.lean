import HelloNegotiation.Proofs.BlockRoundTrip

/-!
# Writing a block that was read normalizes it

Reading forgets two things: whether an offer of no names had an inner length, and the names that an
advertisement repeats. So what is written again has two bytes more for each empty offer and is
shorter by the repeats (`length_wires_normal`); it is what was read if there are neither.
-/
namespace HelloNegotiation

namespace Entry

/-- What is written for the extension that an entry stands for. -/
def normal (e : Entry) : Entry := e.decoded.entry

/-- Whether an entry is one of ALPN without any data. -/
def isEmptyOffer (e : Entry) : Bool := e.id == ExtensionType.alpn.id && e.data.isEmpty

/-- The names that an advertisement repeats. -/
def repeated : Entry → List ProtocolName
  | advertisement names => ProtocolName.repeats [] names
  | _ => []

/-- How many entries are offers without any data. -/
def emptyOffers (es : List Entry) : Nat := es.countP isEmptyOffer

/-- The bytes that the repeated names take up. -/
def repeatedLength (es : List Entry) : Nat :=
  total ProtocolName.wireLength (es.flatMap repeated)

theorem id_normal (e : Entry) : e.normal.id = e.id := by
  cases e with
  | other id data => exact ExtensionType.id_ofId id
  | _ => rfl

/-- What is read again is what was read. -/
theorem decoded_normal (e : Entry) : e.normal.decoded = e.decoded := by
  cases e with
  | advertisement names => exact congrArg Extension.npn (Npn.firsts_names (.firsts names))
  | other id data =>
    have hid := ExtensionType.id_ofId id
    show Extension.other (.ofId (ExtensionType.ofId id).id) data = _
    rw [hid]
    rfl
  | _ => rfl

variable {message : HelloMessage}

theorem Suits.normal {e : Entry} (h : e.Suits message) : e.normal.Suits message := by
  cases e with
  | other id data =>
    show (ExtensionType.ofId id).id ≠ _ ∧ (ExtensionType.ofId id).id ≠ _
    rw [ExtensionType.id_ofId]
    exact h
  | _ => exact h

theorem Suits.isEmptyOffer_iff {e : Entry} (h : e.Suits message) :
    e.isEmptyOffer = true ↔ e = emptyOffer := by
  cases e with
  | emptyOffer => simp [isEmptyOffer, id, data]
  | offer names => simp [isEmptyOffer, data, Word.framed, Word.bytes]
  | selection name => simp [isEmptyOffer, data, ProtocolName.wire]
  | advertisement names => simp [isEmptyOffer, id, ExtensionType.npn, ExtensionType.alpn]
  | other id data =>
    have hid : id ≠ ExtensionType.alpn.id := h.1
    simp [isEmptyOffer, Entry.id, hid]

theorem length_data_normal {e : Entry} (h : e.Suits message) :
    e.normal.data.length + total ProtocolName.wireLength e.repeated =
      e.data.length + 2 * (if e.isEmptyOffer then 1 else 0) := by
  have hempty : e ≠ emptyOffer → e.isEmptyOffer = false := by
    rw [← Bool.not_eq_true, h.isEmptyOffer_iff]
    exact fun hne => hne
  cases e with
  | emptyOffer => rfl
  | advertisement names =>
    have hfirsts := Npn.wireLength_firsts names
    rw [Npn.wireLength, ← ProtocolName.length_wires, ← ProtocolName.length_wires names] at hfirsts
    simpa [hempty, normal, decoded, Extension.entry, data, repeated] using hfirsts
  | _ => simp [hempty, normal, decoded, Extension.entry, data, repeated]

/-- An entry is written as it was read unless it is an empty offer or repeats names. -/
theorem data_normal_eq_iff {e : Entry} (h : e.Suits message) :
    e.normal.data = e.data ↔ e.isEmptyOffer = false ∧ e.repeated = [] := by
  rw [← Bool.not_eq_true, h.isEmptyOffer_iff]
  cases e with
  | emptyOffer => simp [normal, decoded, Extension.entry, data, Word.framed, Word.bytes]
  | advertisement names =>
    have hsame : ProtocolName.wires names.eraseDups = ProtocolName.wires names ↔
        ProtocolName.repeats [] names = [] := by
      rw [ProtocolName.wires_injective.eq_iff, ProtocolName.repeats_eq_nil_iff]
      constructor
      · intro hnames
        rw [← hnames]
        exact ⟨(Npn.firsts names).nodup, by simp⟩
      · intro hnodup
        exact Npn.eraseDups_of_nodup hnodup.1
    simpa [normal, decoded, Extension.entry, data, repeated, Npn.firsts] using hsame
  | _ => simp [normal, decoded, Extension.entry, data, repeated]

theorem emptyOffers_cons (e : Entry) (es : List Entry) :
    emptyOffers (e :: es) = emptyOffers es + if e.isEmptyOffer then 1 else 0 :=
  List.countP_cons

theorem repeatedLength_cons (e : Entry) (es : List Entry) :
    repeatedLength (e :: es) =
      total ProtocolName.wireLength e.repeated + repeatedLength es := by
  simp [repeatedLength]

/-- What is written again, and by how much its length differs. -/
theorem length_wires_normal {es : List Entry} (h : ∀ e ∈ es, e.Suits message) :
    (wires (es.map normal)).length + repeatedLength es =
      (wires es).length + 2 * emptyOffers es := by
  induction es with
  | nil => rfl
  | cons e es ih =>
    have htail := ih fun d hd => h d (List.mem_cons_of_mem e hd)
    have hhead := length_data_normal (h e List.mem_cons_self)
    rw [emptyOffers_cons, repeatedLength_cons]
    simp only [List.map_cons, wires_cons, List.length_append, length_wire]
    omega

theorem emptyOffers_eq_zero {es : List Entry} (h : ∀ e ∈ es, e.Suits message)
    (hne : message ≠ .clientHello) : emptyOffers es = 0 := by
  apply List.countP_eq_zero.mpr
  intro e he hempty
  have hsuits := h e he
  rw [hsuits.isEmptyOffer_iff.mp hempty] at hsuits
  exact hne hsuits

theorem repeatedLength_le (es : List Entry) : repeatedLength es ≤ (wires es).length := by
  induction es with
  | nil => exact Nat.le_refl 0
  | cons e es ih =>
    have hhead : total ProtocolName.wireLength e.repeated ≤ e.data.length := by
      cases e with
      | advertisement names =>
        have hfirsts := Npn.wireLength_firsts names
        rw [repeated, data, ProtocolName.length_wires]
        omega
      | _ => exact Nat.zero_le _
    rw [repeatedLength_cons, wires_cons, List.length_append, length_wire]
    omega

theorem total_wireLength_eq_zero_iff {ps : List ProtocolName} :
    total ProtocolName.wireLength ps = 0 ↔ ps = [] := by
  cases ps with
  | nil => simp
  | cons p ps => simp [ProtocolName.wireLength]

/-- Entries are written as they were read if there are no empty offers and no repeats. -/
theorem wires_normal_eq_iff {es : List Entry} (h : ∀ e ∈ es, e.Allowed message)
    (hle : (wires (es.map normal)).length ≤ 65535) :
    wires (es.map normal) = wires es ↔ emptyOffers es = 0 ∧ repeatedLength es = 0 := by
  induction es with
  | nil => exact ⟨fun _ => ⟨rfl, rfl⟩, fun _ => rfl⟩
  | cons e es ih =>
    obtain ⟨hsuits, hdata⟩ := h e List.mem_cons_self
    simp only [List.map_cons, wires_cons, List.length_append, length_wire] at hle
    have htail := ih (fun d hd => h d (List.mem_cons_of_mem e hd)) (by omega)
    have hhead := data_normal_eq_iff hsuits
    have hsplit : wires ((e :: es).map normal) = wires (e :: es) ↔
        e.normal.data = e.data ∧ wires (es.map normal) = wires es := by
      simp only [List.map_cons, wires_cons, wire, id_normal, List.append_assoc,
        List.append_cancel_left_eq]
      constructor
      · exact Word.framed_append_inj (by omega) hdata
      · intro hparts
        rw [hparts.1, hparts.2]
    have hzero : total ProtocolName.wireLength e.repeated + repeatedLength es = 0 ↔
        e.repeated = [] ∧ repeatedLength es = 0 := by
      rw [Nat.add_eq_zero_iff, total_wireLength_eq_zero_iff]
    rw [hsplit, hhead, htail, emptyOffers_cons, repeatedLength_cons, hzero]
    cases e.isEmptyOffer <;> simp [and_left_comm]

theorem map_entry_decoded (es : List Entry) :
    (es.map decoded).map Extension.entry = es.map normal := by
  rw [List.map_map]
  rfl

end Entry

namespace Block

/-- The entries that the first bytes behind a declared length are made of. -/
structure Holds (message : HelloMessage) (L : UInt16) (bs : Bytes) (es : List Entry) : Prop where
  bytes : ∃ rest, bs = Entry.wires es ++ rest
  length : (Entry.wires es).length = L.toNat
  allowed : ∀ e ∈ es, e.Allowed message

section
variable {message : HelloMessage} {c : Catalogue} {L : UInt16} {tail : Bytes} {b : Block}
  {s : Source} {es : List Entry}

theorem exists_holds (hc : c.Reachable)
    (h : (read message).run ⟨Word.bytes L ++ tail, c⟩ = .ok b s) :
    ∃ es, Holds message L tail es := by
  have hout : outcome ((read message).run ⟨Word.bytes L ++ tail, c⟩) = (.ok b.members, s.rest) := by
    rw [h]
    rfl
  obtain ⟨K, es, hbs, hlen, hes, -⟩ := (outcome_eq_ok_iff hc).mp hout
  rw [List.append_assoc] at hbs
  obtain ⟨hword, htail⟩ := List.append_inj hbs rfl
  have hK : K = L := (Word.bytes_injective hword).symm
  subst hK
  exact ⟨es, ⟨s.rest, htail⟩, hlen, hes⟩

theorem Holds.members_eq (hes : Holds message L tail es) (hc : c.Reachable)
    (h : (read message).run ⟨Word.bytes L ++ tail, c⟩ = .ok b s) :
    b.members = es.map Entry.decoded := by
  obtain ⟨⟨rest, rfl⟩, hlen, hall⟩ := hes
  have hread := run_read_framed hc (hlen ▸ Word.toNat_le L) hall rest
  rw [Word.framed_eq hlen, List.append_assoc, h] at hread
  cases hread
  rfl

theorem Holds.ne_nil (hes : Holds message L tail es) (hL : L ≠ 0) : es ≠ [] := by
  intro hnil
  have hlen := hes.length
  rw [hnil] at hlen
  exact hL (UInt16.toNat_inj.mp hlen.symm)

theorem Holds.suits (hes : Holds message L tail es) : ∀ e ∈ es, e.Suits message :=
  fun e he => (hes.allowed e he).suits

/-- A block of the extensions that entries stand for is written as the normal entries. -/
theorem fst_toBytes_decoded (hb : b.Measured) (hmembers : b.members = es.map Entry.decoded)
    (hne : es ≠ []) :
    b.encodedLength.1 = 2 + (Entry.wires (es.map Entry.normal)).length ∧
    b.toBytes.1 = if (Entry.wires (es.map Entry.normal)).length ≤ 65535 then
      .ok (Word.framed (Entry.wires (es.map Entry.normal))) else .error .encode := by
  have hnil : b.members ≠ [] := by
    rw [hmembers]
    exact fun h => hne (List.map_eq_nil_iff.mp h)
  have hsum : total Extension.wireLength b.members =
      (Entry.wires (es.map Entry.normal)).length := by
    rw [← Extension.length_wires_entry, hmembers, Entry.map_entry_decoded]
  constructor
  · rw [(encodedLength_eq hb).1, wireLength_of_ne_nil hnil, hsum]
  · rw [fst_toBytes hb, if_neg hnil, hsum, hmembers, Entry.map_entry_decoded]

/-- Normal entries that fit are read as what the entries stood for, and written as they are. -/
theorem read_normal (hne : es ≠ []) (hsuits : ∀ e ∈ es, e.Suits message)
    (hle : (Entry.wires (es.map Entry.normal)).length ≤ 65535) (hc : c.Reachable) (rest : Bytes) :
    ∃ b d, (read message).run ⟨Word.framed (Entry.wires (es.map Entry.normal)) ++ rest, c⟩ =
        .ok b ⟨rest, d⟩ ∧ b.members = es.map Entry.decoded ∧
      b.toBytes.1 = .ok (Word.framed (Entry.wires (es.map Entry.normal))) := by
  have hall : ∀ e ∈ es.map Entry.normal, e.Allowed message := by
    rw [← Entry.map_entry_decoded]
    refine allowed_entries ?_ ?_
    · intro x hx
      obtain ⟨e, he, rfl⟩ := List.mem_map.mp hx
      exact (hsuits e he).normal
    · rwa [← Extension.length_wires_entry, Entry.map_entry_decoded]
  have hread := run_read_framed hc hle hall rest
  have hdecoded : (es.map Entry.normal).map Entry.decoded = es.map Entry.decoded := by
    rw [List.map_map]
    exact List.map_congr_left fun e _ => e.decoded_normal
  rw [hdecoded] at hread
  have hwritten := (fst_toBytes_decoded (Built.read hread).measured rfl hne).2
  rw [if_pos hle] at hwritten
  exact ⟨_, _, hread, rfl, hwritten⟩

end

/-- Writing what was read normalizes it: each empty offer grows by two bytes and the repeated names
are left out. This fails only if the result no longer fits behind its length, and it changes
nothing only if there was nothing to change. -/
theorem toBytes_normalizes {message : HelloMessage} {c : Catalogue} (hc : c.Reachable)
    {L : UInt16} {tail : Bytes} {b : Block} {s : Source}
    (h : (read message).run ⟨Word.bytes L ++ tail, c⟩ = .ok b s) (hL : L ≠ 0) :
    (∃ es, Holds message L tail es) ∧
    ∀ es, Holds message L tail es →
      (message ≠ .clientHello → Entry.emptyOffers es = 0) ∧
      b.encodedLength.1 + Entry.repeatedLength es =
        2 + L.toNat + 2 * Entry.emptyOffers es ∧
      (b.toBytes.1 = .error .encode ↔
        65535 + Entry.repeatedLength es < L.toNat + 2 * Entry.emptyOffers es) ∧
      (message ≠ .clientHello → ∀ f, b.toBytes.1 ≠ .error f) ∧
      (L.toNat + 2 * Entry.emptyOffers es ≤ 65535 + Entry.repeatedLength es →
        ∃ bs, b.toBytes.1 = .ok bs ∧
          (∀ (d : Catalogue) (rest : Bytes), d.Reachable →
            ∃ b' d', (read message).run ⟨bs ++ rest, d⟩ = .ok b' ⟨rest, d'⟩ ∧
              b'.members = b.members ∧ b'.toBytes.1 = .ok bs) ∧
          (bs = (Word.bytes L ++ tail).take (2 + L.toNat) ↔
            Entry.emptyOffers es = 0 ∧ Entry.repeatedLength es = 0)) := by
  refine ⟨exists_holds hc h, ?_⟩
  intro es hes
  have hne := hes.ne_nil hL
  have hmembers := hes.members_eq hc h
  have hlength := Entry.length_wires_normal hes.suits
  rw [hes.length] at hlength
  have hrepeated := Entry.repeatedLength_le es
  obtain ⟨hencoded, hwritten⟩ := fst_toBytes_decoded (Built.read h).measured hmembers hne
  have hempty := fun hother => Entry.emptyOffers_eq_zero hes.suits hother
  have hdeclared := Word.toNat_le L
  refine ⟨hempty, by omega, ?_, ?_, ?_⟩
  · rw [hwritten]
    split
    · simp only [reduceCtorEq, false_iff]
      omega
    · simp only [true_iff]
      omega
  · intro hother f
    have hzero := hempty hother
    rw [hwritten, if_pos (by omega)]
    nofun
  · intro hfits
    have hle : (Entry.wires (es.map Entry.normal)).length ≤ 65535 := by omega
    rw [if_pos hle] at hwritten
    refine ⟨_, hwritten, ?_, ?_⟩
    · intro d rest hd
      rw [hmembers]
      exact read_normal hne hes.suits hle hd rest
    · obtain ⟨⟨rest, rfl⟩, hlen, hall⟩ := hes
      have htake : (Word.bytes L ++ (Entry.wires es ++ rest)).take (2 + L.toNat) =
          Word.framed (Entry.wires es) := by
        rw [Word.framed_eq hlen, ← List.append_assoc]
        exact List.take_left' (by simp [hlen])
      rw [htake, ← Entry.wires_normal_eq_iff hall hle]
      constructor
      · intro hframed
        have hsame := congrArg (· ++ ([] : Bytes)) hframed
        exact (Word.framed_append_inj hle (hlen ▸ hdeclared) hsame).1
      · intro hwires
        rw [hwires]

private def doubled : List Entry := [.emptyOffer, .advertisement [.h2, .h2]]

/-- An empty offer grows by two bytes and a repeated name of three is left out: the fourteen bytes
behind the length become thirteen. -/
theorem toBytes_normalizes_doubled :
    Catalogue.initial.Reachable ∧ (14 : UInt16) ≠ 0 ∧
    Holds .clientHello 14 (Entry.wires doubled ++ [0xFF]) doubled ∧
    ∃ b s, (read .clientHello).run ⟨Word.bytes 14 ++ (Entry.wires doubled ++ [0xFF]), .initial⟩ =
        .ok b s ∧
      b.encodedLength.1 = 15 ∧ ∃ bs, b.toBytes.1 = .ok bs ∧
        bs ≠ (Word.bytes 14 ++ (Entry.wires doubled ++ [0xFF])).take 16 := by
  have hreach := Catalogue.Reachable.initial
  have hL : (14 : UInt16) ≠ 0 := by decide
  have hall : ∀ e ∈ doubled, e.Allowed .clientHello := by decide
  have hlen : (Entry.wires doubled).length = (14 : UInt16).toNat := by decide
  have hes : Holds .clientHello 14 (Entry.wires doubled ++ [0xFF]) doubled :=
    ⟨⟨[0xFF], rfl⟩, hlen, hall⟩
  have hread := run_read_framed hreach (by decide) hall [0xFF]
  rw [Word.framed_eq hlen, List.append_assoc] at hread
  have hnormal := (toBytes_normalizes hreach hread hL).2 doubled hes
  obtain ⟨-, hencoded, -, -, hfits⟩ := hnormal
  have hempty : Entry.emptyOffers doubled = 1 := by decide
  have hrepeated : Entry.repeatedLength doubled = 3 := by decide
  have hdeclared : (14 : UInt16).toNat = 14 := rfl
  rw [hempty, hrepeated, hdeclared] at hencoded hfits
  obtain ⟨bs, hbytes, -, hsame⟩ := hfits (by decide)
  refine ⟨hreach, hL, hes, _, _, hread, by omega, bs, hbytes, ?_⟩
  intro heq
  exact absurd (hsame.mp heq).1 (by decide)

end Block

end HelloNegotiation
