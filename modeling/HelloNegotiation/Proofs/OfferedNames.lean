import HelloNegotiation.Proofs.BlockWriting

/-!
# Reading the names offered

An offer has no data at all, or a length and just that many bytes in which names stand one after
another. Where it is neither, the first thing wrong is reported: the length is missing or claims
too much, then a name within the bytes claimed cannot be read, then bytes follow those claimed
(`Alpn.readOffered_follows_format`). A name never goes past the bytes claimed, whatever follows.
-/
namespace HelloNegotiation

namespace ProtocolName

/-- A list within a window: names that fill the window, and nothing else. -/
theorem run_list_eq_ok_iff {n : Nat} {bs rest : Bytes} {ps : List ProtocolName} :
    (Reader.list n item).run bs = .ok ps rest ↔ bs = wires ps ++ rest ∧ (wires ps).length = n := by
  rw [Reader.list, Reader.run_window_eq_ok_iff]
  constructor
  · intro h
    obtain ⟨front, t, rfl, hlen, h⟩ := h
    obtain ⟨rfl, -⟩ := run_all_eq_ok_iff.mp h
    exact ⟨rfl, hlen⟩
  · intro h
    obtain ⟨rfl, hlen⟩ := h
    exact ⟨wires ps, [], rfl, hlen, run_all_eq_ok_iff.mpr ⟨rfl, rfl⟩⟩

/-- A list within a window fails when the window is cut, or as the first name in it that cannot be
read. -/
theorem run_list_eq_error_iff {n : Nat} {bs rest : Bytes} {e : ReadFault} :
    (Reader.list n item).run bs = .error e rest ↔
      (bs.length < n ∧ e = .insufficientBytes ∧ rest = bs) ∨
      ∃ (ps : List ProtocolName) (tail : Bytes), bs = wires ps ++ tail ++ rest ∧
        (wires ps ++ tail).length = n ∧ Faulty tail e := by
  rw [Reader.list, Reader.run_window_eq_error_iff]
  refine or_congr Iff.rfl ?_
  constructor
  · intro h
    obtain ⟨front, t, rfl, hlen, h⟩ := h
    obtain ⟨ps, tail, rfl, hfaulty⟩ := run_all_eq_error_iff.mp ⟨t, h⟩
    exact ⟨ps, tail, rfl, hlen, hfaulty⟩
  · intro h
    obtain ⟨ps, tail, rfl, hlen, hfaulty⟩ := h
    obtain ⟨t, h⟩ := run_all_eq_error_iff.mpr ⟨ps, tail, rfl, hfaulty⟩
    exact ⟨wires ps ++ tail, t, rfl, hlen, h⟩

end ProtocolName

namespace Alpn
open ProtocolName (wires Faulty)

/-- The names offered once their length `n` is known; nothing may follow them. -/
def readNames (n : Nat) : Reader Alpn := do
  let names ← Reader.list n ProtocolName.item
  Reader.finish
  return .offered names

/-- The data of an offer begin with a length, unless there is too little of them for one. -/
theorem data_cases (bs : Bytes) :
    bs = [] ∨ bs.length = 1 ∨ ∃ k left, bs = Word.bytes k ++ left := by
  rcases Word.length_lt_or_bytes bs with hshort | hlong
  · rcases Nat.eq_zero_or_pos bs.length with hzero | hpos
    · exact .inl (List.length_eq_zero_iff.mp hzero)
    · exact .inr (.inl (by omega))
  · exact .inr (.inr hlong)

theorem run_readOffered_nil : readOffered.run [] = .ok (.offered []) [] := rfl

theorem run_readOffered_of_length_one {bs : Bytes} (h : bs.length = 1) :
    readOffered.run bs = .error .insufficientBytes bs := by
  obtain ⟨b, rfl⟩ := List.length_eq_one_iff.mp h
  rfl

/-- The length is read, and the rest is up to the names. -/
theorem run_readOffered_bytes (k : UInt16) (bs : Bytes) :
    readOffered.run (Word.bytes k ++ bs) = (readNames k.toNat).run bs := by
  show (Reader.word >>= fun k => readNames k.toNat).run (Word.bytes k ++ bs) = _
  rw [EStateM.run_bind, Reader.run_word_bytes]

theorem run_readNames_eq_ok_iff {n : Nat} {bs rest : Bytes} {a : Alpn} :
    (readNames n).run bs = .ok a rest ↔
      rest = [] ∧ ∃ ps, a = .offered ps ∧ bs = wires ps ∧ (wires ps).length = n := by
  constructor
  · intro h
    obtain ⟨ps, left, hlist, h⟩ := Reader.run_bind_eq_ok_iff.mp h
    obtain ⟨u, last, hfinish, h⟩ := Reader.run_bind_eq_ok_iff.mp h
    obtain ⟨rfl, hlen⟩ := ProtocolName.run_list_eq_ok_iff.mp hlist
    obtain ⟨rfl, rfl⟩ := Reader.run_finish_eq_ok_iff.mp hfinish
    cases h
    exact ⟨rfl, ps, rfl, List.append_nil _, hlen⟩
  · intro h
    obtain ⟨rfl, ps, rfl, rfl, hlen⟩ := h
    have hlist := ProtocolName.run_list_eq_ok_iff.mpr ⟨(List.append_nil _).symm, hlen⟩
    exact Reader.run_bind_eq_ok_iff.mpr ⟨ps, [], hlist, rfl⟩

theorem run_readNames_eq_error_iff {n : Nat} {bs rest : Bytes} {e : ReadFault} :
    (readNames n).run bs = .error e rest ↔
      (bs.length < n ∧ e = .insufficientBytes ∧ rest = bs) ∨
      (∃ ps tail, bs = wires ps ++ tail ++ rest ∧ (wires ps ++ tail).length = n ∧
        Faulty tail e) ∨
      ∃ ps, bs = wires ps ++ rest ∧ (wires ps).length = n ∧ rest ≠ [] ∧ e = .invalidData := by
  rw [← or_assoc, ← ProtocolName.run_list_eq_error_iff]
  constructor
  · intro h
    obtain hlist | ⟨ps, left, hlist, hnext⟩ := Reader.run_bind_eq_error_iff.mp h
    · exact .inl hlist
    · obtain ⟨rfl, hlen⟩ := ProtocolName.run_list_eq_ok_iff.mp hlist
      obtain hfinish | ⟨u, last, -, hreturn⟩ := Reader.run_bind_eq_error_iff.mp hnext
      · obtain ⟨hne, rfl, rfl⟩ := Reader.run_finish_eq_error_iff.mp hfinish
        exact .inr ⟨ps, rfl, hlen, hne, rfl⟩
      · cases hreturn
  · intro h
    refine Reader.run_bind_eq_error_iff.mpr ?_
    obtain hlist | ⟨ps, rfl, hlen, hne, rfl⟩ := h
    · exact .inl hlist
    · have hlist : (Reader.list n ProtocolName.item).run (wires ps ++ rest) = .ok ps rest :=
        ProtocolName.run_list_eq_ok_iff.mpr ⟨rfl, hlen⟩
      have hfinish := Reader.run_finish_eq_error_iff.mpr ⟨hne, rfl, rfl⟩
      exact .inr ⟨ps, rest, hlist, Reader.run_bind_eq_error_iff.mpr (.inl hfinish)⟩

/-- The data of an offer: none at all, or names that fill the length before them. -/
theorem run_readOffered_eq_ok_iff {bs rest : Bytes} {a : Alpn} :
    readOffered.run bs = .ok a rest ↔
      rest = [] ∧ ∃ ps, a = .offered ps ∧
        (bs = [] ∧ ps = [] ∨
          ∃ k : UInt16, bs = Word.bytes k ++ wires ps ∧ (wires ps).length = k.toNat) := by
  constructor
  · intro h
    rcases data_cases bs with rfl | hone | ⟨k, left, rfl⟩
    · rw [run_readOffered_nil] at h
      cases h
      exact ⟨rfl, [], rfl, .inl ⟨rfl, rfl⟩⟩
    · rw [run_readOffered_of_length_one hone] at h
      cases h
    · rw [run_readOffered_bytes] at h
      obtain ⟨rfl, ps, rfl, rfl, hlen⟩ := run_readNames_eq_ok_iff.mp h
      exact ⟨rfl, ps, rfl, .inr ⟨k, rfl, hlen⟩⟩
  · intro h
    obtain ⟨rfl, ps, rfl, ⟨rfl, rfl⟩ | ⟨k, rfl, hlen⟩⟩ := h
    · exact run_readOffered_nil
    · rw [run_readOffered_bytes]
      exact run_readNames_eq_ok_iff.mpr ⟨rfl, ps, rfl, rfl, hlen⟩

/-- What is wrong with the data of an offer, and where reading ends. -/
theorem run_readOffered_eq_error_iff {bs rest : Bytes} {e : ReadFault} :
    readOffered.run bs = .error e rest ↔
      (bs.length = 1 ∧ e = .insufficientBytes ∧ rest = bs) ∨
      ∃ (k : UInt16) (left : Bytes), bs = Word.bytes k ++ left ∧
        ((left.length < k.toNat ∧ e = .insufficientBytes ∧ rest = left) ∨
          (∃ ps tail, left = wires ps ++ tail ++ rest ∧ (wires ps ++ tail).length = k.toNat ∧
            Faulty tail e) ∨
          ∃ ps, left = wires ps ++ rest ∧ (wires ps).length = k.toNat ∧ rest ≠ [] ∧
            e = .invalidData) := by
  constructor
  · intro h
    rcases data_cases bs with rfl | hone | ⟨k, left, rfl⟩
    · rw [run_readOffered_nil] at h
      cases h
    · rw [run_readOffered_of_length_one hone] at h
      cases h
      exact .inl ⟨hone, rfl, rfl⟩
    · rw [run_readOffered_bytes] at h
      exact .inr ⟨k, left, rfl, run_readNames_eq_error_iff.mp h⟩
  · intro h
    obtain ⟨hone, rfl, rfl⟩ | ⟨k, left, rfl, hleft⟩ := h
    · exact run_readOffered_of_length_one hone
    · rw [run_readOffered_bytes]
      exact run_readNames_eq_error_iff.mpr hleft

/-- Names that fit behind their length are written as that length and the names, which are as many
bytes as the offer says it takes up. -/
theorem denote_offered {ps : List ProtocolName} (h : (wires ps).length ≤ 65535) :
    (offered ps).layout.denote = (Word.framed (wires ps), none) ∧
      (Word.framed (wires ps)).length = (offered ps).wireLength := by
  refine ⟨Layout.denote_block_two (ProtocolName.denote_layouts ps) h, ?_⟩
  rw [Word.length_framed, ProtocolName.length_wires, wireLength]

/-- Reading an offer decides every byte string as the format says, and reports the first thing that
is wrong with it. What was read is written back as it stood, unless it was no data at all, and
takes up the length that it says. -/
theorem readOffered_follows_format (d : Bytes) :
    (∀ a rest, readOffered.run d = .ok a rest ↔
      rest = [] ∧ ∃ ps, a = .offered ps ∧
        (d = [] ∧ ps = [] ∨
          ∃ k : UInt16, d = Word.bytes k ++ wires ps ∧ (wires ps).length = k.toNat)) ∧
    (∀ e rest, readOffered.run d = .error e rest ↔
      (d.length = 1 ∧ e = .insufficientBytes ∧ rest = d) ∨
      ∃ (k : UInt16) (left : Bytes), d = Word.bytes k ++ left ∧
        ((left.length < k.toNat ∧ e = .insufficientBytes ∧ rest = left) ∨
          (∃ ps tail, left = wires ps ++ tail ++ rest ∧ (wires ps ++ tail).length = k.toNat ∧
            Faulty tail e) ∨
          ∃ ps, left = wires ps ++ rest ∧ (wires ps).length = k.toNat ∧ rest ≠ [] ∧
            e = .invalidData)) ∧
    ∀ a rest, readOffered.run d = .ok a rest →
      ∃ bs, bs.length = a.wireLength ∧ (d ≠ [] → bs = d) ∧
        ∀ s : Sink, s.bytes.length + bs.length ≤ s.capacity →
          ∃ t, a.layout.write.run s = .ok () t ∧ t.bytes = s.bytes ++ bs := by
  refine ⟨fun _ _ => run_readOffered_eq_ok_iff, fun _ _ => run_readOffered_eq_error_iff, ?_⟩
  intro a rest h
  obtain ⟨-, ps, rfl, hps⟩ := run_readOffered_eq_ok_iff.mp h
  have hle : (wires ps).length ≤ 65535 := by
    obtain ⟨-, rfl⟩ | ⟨k, -, hlen⟩ := hps
    · exact Nat.zero_le _
    · exact hlen ▸ Word.toNat_le k
  obtain ⟨hdenote, hlength⟩ := denote_offered hle
  refine ⟨Word.framed (wires ps), hlength, ?_, ?_⟩
  · intro hd
    obtain ⟨hnil, -⟩ | ⟨k, rfl, hlen⟩ := hps
    · exact absurd hnil hd
    · exact Word.framed_eq hlen
  · intro s hroom
    obtain ⟨t, -, hbytes, hrun⟩ :=
      (offered ps).layout.run_write_of_room s (by rw [hdenote]; exact hroom)
    rw [hdenote] at hbytes hrun
    exact ⟨t, hrun, hbytes⟩

end Alpn

end HelloNegotiation
