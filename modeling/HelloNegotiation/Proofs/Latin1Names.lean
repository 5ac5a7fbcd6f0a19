import HelloNegotiation.Proofs.AdvertisedNames
import HelloNegotiation.Proofs.Utf8Names
import Mathlib.Algebra.BigOperators.Group.List.Basic

/-!
# Names advertised as ISO-8859-1 text

In ISO-8859-1 every byte is a character and the characters up to U+00FF are bytes. So a text can be
a name when it has 1 to 255 such characters, and every advertisement is that of its texts. Texts
that repeat are dropped like the names (`Npn.advertises_latin1_texts`).
-/
namespace HelloNegotiation

/-- Which members come first does not change when distinct ones are mapped to distinct ones. -/
theorem eraseDups_map {α β : Type} [BEq α] [LawfulBEq α] [BEq β] [LawfulBEq β] {f : α → β}
    (hf : Function.Injective f) (xs : List α) : (xs.map f).eraseDups = xs.eraseDups.map f := by
  induction xs using List.reverseRecOn with
  | nil => rfl
  | append_singleton xs x ih =>
    rw [List.map_append, List.eraseDups_append, List.eraseDups_append, List.map_append, ih]
    simp only [List.map_cons, List.map_nil, List.cons_removeAll, List.nil_removeAll]
    by_cases hx : x ∈ xs
    · have hmap : f x ∈ xs.map f := List.mem_map_of_mem hx
      simp [hx, hmap]
    · have hmap : f x ∉ xs.map f := by rwa [List.mem_map_of_injective hf]
      simp [hx, hmap, List.eraseDups_cons]

namespace Text.Latin1
variable {s : String} {bs : Bytes} {c : Char}

theorem encodeChar?_eq_some_iff {b : UInt8} : encodeChar? c = some b ↔ Char.ofNat b.toNat = c := by
  constructor
  · intro h
    unfold encodeChar? at h
    split at h
    · next hc =>
      cases h
      rw [UInt8.toNat_ofNat', Nat.mod_eq_of_lt hc, Char.ofNat_toNat]
    · cases h
  · rintro rfl
    exact encodeChar?_ofByte b

theorem exists_encodeChar?_iff : (∃ b, encodeChar? c = some b) ↔ c.toNat ≤ 0xFF := by
  unfold encodeChar?
  split
  · exact iff_of_true ⟨_, rfl⟩ (by omega)
  · exact iff_of_false (by simp) (by omega)

/-- A text is encoded as the bytes that it is the decoding of. -/
theorem encode?_eq_some_iff : encode? s = some bs ↔ decode bs = s := by
  constructor
  · intro h
    rw [decode, ← String.ofList_toList (s := s)]
    congr 1
    rw [encode?] at h
    generalize s.toList = cs at h
    induction cs generalizing bs with
    | nil =>
      cases h
      rfl
    | cons c cs ih =>
      simp only [List.mapM_cons, Option.bind_eq_bind, Option.bind_eq_some_iff] at h
      obtain ⟨b, hb, tail, htail, h⟩ := h
      cases h
      rw [List.map_cons, encodeChar?_eq_some_iff.mp hb, ih htail]
  · rintro rfl
    exact encode?_decode bs

/-- A text can be encoded when each of its characters can. -/
theorem exists_encode?_iff : (∃ bs, encode? s = some bs) ↔ ∀ c ∈ s.toList, c.toNat ≤ 0xFF := by
  rw [encode?]
  generalize s.toList = cs
  induction cs with
  | nil => exact iff_of_true ⟨[], rfl⟩ (by simp)
  | cons c cs ih =>
    rw [List.forall_mem_cons, ← exists_encodeChar?_iff, ← ih]
    simp only [List.mapM_cons, Option.bind_eq_bind, Option.bind_eq_some_iff]
    constructor
    · rintro ⟨_, b, hb, tail, htail, -⟩
      exact ⟨⟨b, hb⟩, tail, htail⟩
    · rintro ⟨⟨b, hb⟩, tail, htail⟩
      exact ⟨b :: tail, b, hb, tail, htail, rfl⟩

theorem toList_decode (bs : Bytes) : (decode bs).toList = bs.map fun b => Char.ofNat b.toNat := by
  rw [decode, String.toList_ofList]

theorem length_decode (bs : Bytes) : (decode bs).length = bs.length := by
  rw [← String.length_toList, toList_decode, List.length_map]

end Text.Latin1

namespace Text.Utf8
variable {s : String} {c : Char}

theorem length_encodeChar_eq_one_iff :
    (String.utf8EncodeChar c).length = 1 ↔ c.toNat < 0x80 := by
  rw [String.length_utf8EncodeChar, Char.utf8Size_eq_one_iff, UInt32.le_iff_toNat_le]
  exact Nat.lt_succ_iff.symm

theorem encodeChar_of_lt (h : c.toNat < 0x80) :
    String.utf8EncodeChar c = [UInt8.ofNat c.toNat] := by
  have hle : c.val.toNat ≤ 127 := Nat.le_of_lt_succ h
  simp only [String.utf8EncodeChar, if_pos hle]
  rfl

/-- Outside of ASCII a character takes more than one byte. -/
theorem length_encode_eq_length_iff :
    (encode s).length = s.length ↔ ∀ c ∈ s.toList, c.toNat < 0x80 := by
  rw [encode, ← String.length_toList]
  generalize s.toList = cs
  induction cs with
  | nil => simp
  | cons c cs ih =>
    have hpos : ∀ c, 1 ≤ (String.utf8EncodeChar c).length := by
      intro c
      rw [String.length_utf8EncodeChar]
      exact c.utf8Size_pos
    have hfirst := hpos c
    have hle : cs.length ≤ (cs.flatMap String.utf8EncodeChar).length := by
      rw [List.length_flatMap, ← List.length_map (fun c => (String.utf8EncodeChar c).length)]
      apply List.length_le_sum_of_one_le
      rintro _ hsize
      obtain ⟨d, -, rfl⟩ := List.mem_map.mp hsize
      exact hpos d
    rw [List.forall_mem_cons, ← ih, ← length_encodeChar_eq_one_iff]
    simp only [List.flatMap_cons, List.length_append, List.length_cons]
    omega

/-- A text that ISO-8859-1 can encode is of the same bytes in UTF-8 when it is ASCII. -/
theorem encode_eq_latin1_iff {bs : Bytes} (h : Latin1.encode? s = some bs) :
    encode s = bs ↔ ∀ c ∈ s.toList, c.toNat < 0x80 := by
  obtain rfl := Latin1.encode?_eq_some_iff.mp h
  constructor
  · intro hsame
    rw [← length_encode_eq_length_iff, hsame, Latin1.length_decode]
  · intro hascii
    rw [Latin1.toList_decode] at hascii
    rw [encode, Latin1.toList_decode, List.flatMap_map]
    clear h
    induction bs with
    | nil => rfl
    | cons b bs ih =>
      rw [List.map_cons, List.forall_mem_cons] at hascii
      rw [List.flatMap_cons, encodeChar_of_lt hascii.1, Latin1.toNat_ofByte, UInt8.ofNat_toNat,
        ih hascii.2]
      rfl

end Text.Utf8

namespace ProtocolName
variable {p : ProtocolName} {s : String}

theorem ofLatin1_eq_ok_iff : ofLatin1 s = .ok p ↔ p.latin1 = s := by
  constructor
  · intro h
    unfold ofLatin1 at h
    split at h
    · next bs hbs =>
      rw [latin1, bytes_of_ofBytes h]
      exact Text.Latin1.encode?_eq_some_iff.mp hbs
    · cases h
  · rintro rfl
    exact p.ofLatin1_latin1

theorem latin1_injective : Function.Injective latin1 := by
  intro p q h
  have hp := p.ofLatin1_latin1
  rw [h, q.ofLatin1_latin1] at hp
  cases hp
  rfl

theorem exists_ofLatin1_eq_ok_iff : (∃ p, ofLatin1 s = .ok p) ↔
    (1 ≤ s.length ∧ s.length ≤ 255) ∧ ∀ c ∈ s.toList, c.toNat ≤ 0xFF := by
  rw [← Text.Latin1.exists_encode?_iff]
  unfold ofLatin1
  cases h : Text.Latin1.encode? s with
  | none => simp
  | some bs =>
    obtain rfl := Text.Latin1.encode?_eq_some_iff.mp h
    rw [exists_ofBytes_eq_ok_iff, Text.Latin1.length_decode]
    exact (and_iff_left ⟨bs, rfl⟩).symm

theorem fault_of_ofLatin1 {f : Fault} (h : ofLatin1 s = .error f) : f = .protocolName := by
  unfold ofLatin1 at h
  split at h
  · exact fault_of_ofBytes h
  · cases h
    rfl

theorem encode?_of_ofLatin1 (h : ofLatin1 s = .ok p) : Text.Latin1.encode? s = some p.bytes :=
  Text.Latin1.encode?_eq_some_iff.mpr (ofLatin1_eq_ok_iff.mp h)

/-- The two ways to make a name from a text agree on ASCII. -/
theorem ofLatin1_eq_ofUtf8_iff {q : ProtocolName} (hp : ofLatin1 s = .ok p)
    (hq : ofUtf8 s = .ok q) : p = q ↔ ∀ c ∈ s.toList, c.toNat < 0x80 := by
  rw [← Text.Utf8.encode_eq_latin1_iff (encode?_of_ofLatin1 hp), ofUtf8_eq_ok_iff.mp hq]
  constructor
  · rintro rfl
    rfl
  · intro h
    exact (ext_bytes h).symm

theorem mapM_ofLatin1_eq_ok_iff {texts : List String} {ps : List ProtocolName} :
    texts.mapM ofLatin1 = .ok ps ↔ ps.map latin1 = texts := by
  simp only [mapM_eq_ok_iff, ofLatin1_eq_ok_iff, eq_comm (b := (_ : String))]
  rw [← List.forall₂_map_right_iff, List.forall₂_eq_eq_eq, eq_comm]

end ProtocolName

namespace Npn
open ProtocolName (latin1 ofLatin1 ofUtf8)
variable {texts : List String} {n : Npn}

theorem ofTexts_eq_ok_iff : ofTexts texts = .ok n ↔
    ∃ ps : List ProtocolName, ps.map latin1 = texts ∧ n = ofNames ps := by
  rw [ofTexts, bind_eq_ok_iff]
  simp only [ProtocolName.mapM_ofLatin1_eq_ok_iff, pure, Except.pure, Except.ok.injEq,
    eq_comm (a := n)]

/-- The texts of an advertisement are those it is made from, each where it comes first. -/
theorem texts_of_ofTexts (h : ofTexts texts = .ok n) : n.texts = texts.eraseDups := by
  obtain ⟨ps, rfl, rfl⟩ := ofTexts_eq_ok_iff.mp h
  rw [eraseDups_map ProtocolName.latin1_injective, Npn.texts, names_ofNames]

/-- Texts can be advertised when all of them have 1 to 255 characters, none above U+00FF, and
otherwise it is for a name that they cannot. The advertisement and what is read from its bytes have
these texts, each where it comes first. Every advertisement, of whatever bytes its names are, is
the one of its texts. A text that is a name in ISO-8859-1 and in UTF-8 is the same one in both just
when it is ASCII. -/
theorem advertises_latin1_texts :
    (∀ texts : List String,
      ((∃ n, ofTexts texts = .ok n) ↔
        ∀ s ∈ texts, (1 ≤ s.length ∧ s.length ≤ 255) ∧ ∀ c ∈ s.toList, c.toNat ≤ 0xFF) ∧
      (ofTexts texts = .error .protocolName ↔
        ¬ ∀ s ∈ texts, (1 ≤ s.length ∧ s.length ≤ 255) ∧ ∀ c ∈ s.toList, c.toNat ≤ 0xFF)) ∧
    (∀ texts n, ofTexts texts = .ok n → n.texts = texts.eraseDups ∧
      ∃ bs m, n.layout.Writes bs ∧ read.run bs = .ok m [] ∧ m.texts = texts.eraseDups) ∧
    (∀ n : Npn, ofTexts n.texts = .ok n) ∧
    ∀ s p q, ofLatin1 s = .ok p → ofUtf8 s = .ok q →
      (p = q ↔ ∀ c ∈ s.toList, c.toNat < 0x80) := by
  refine ⟨?_, ?_, ?_, fun s p q => ProtocolName.ofLatin1_eq_ofUtf8_iff⟩
  · intro texts
    exact mapM_bind_pure_iff ofNames (fun _ => ProtocolName.exists_ofLatin1_eq_ok_iff)
      fun _ _ => ProtocolName.fault_of_ofLatin1
  · intro texts n h
    have htexts := texts_of_ofTexts h
    exact ⟨htexts, _, n, n.writes, n.run_read_wires, htexts⟩
  · intro n
    exact ofTexts_eq_ok_iff.mpr ⟨n.names, rfl, (ofNames_names n).symm⟩

end Npn

end HelloNegotiation
