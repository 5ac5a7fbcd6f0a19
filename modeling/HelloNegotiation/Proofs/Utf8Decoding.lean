import HelloNegotiation.Text.Utf8
import Mathlib.Data.List.Forall2

/-!
# Decoding UTF-8

The bytes of a character are a lead and as many bytes more as the lead asks for (`Sequence`); no
other bytes are a piece that is a character. So a byte string can be decoded when it is the encoding
of a text, which is then the text decoded (`decode?_eq_some_iff`), and shows a replacement character
otherwise (`replacement_mem_lossy`).
-/
namespace HelloNegotiation.Text.Utf8

/-- A byte that follows a lead. -/
def Tail (b : UInt8) : Prop := 0x80 ≤ b.toNat ∧ b.toNat ≤ 0xBF

/-- The bytes of a character: a lead and the bytes after it. After four of the leads the first of
these has less room, which keeps out longer encodings than needed, the surrogates, and code points
past the last one. -/
inductive Sequence : UInt8 → Bytes → Prop
  | one {lead : UInt8} (hlead : lead.toNat < 0x80) : Sequence lead []
  | two {lead a : UInt8} (hlead : 0xC2 ≤ lead.toNat ∧ lead.toNat < 0xE0) (ha : Tail a) :
      Sequence lead [a]
  | three {lead a b : UInt8} (hlead : 0xE0 ≤ lead.toNat ∧ lead.toNat < 0xF0) (ha : Tail a)
      (hb : Tail b) (short : lead.toNat = 0xE0 → 0xA0 ≤ a.toNat)
      (surrogate : lead.toNat = 0xED → a.toNat ≤ 0x9F) : Sequence lead [a, b]
  | four {lead a b c : UInt8} (hlead : 0xF0 ≤ lead.toNat ∧ lead.toNat < 0xF5) (ha : Tail a)
      (hb : Tail b) (hc : Tail c) (short : lead.toNat = 0xF0 → 0x90 ≤ a.toNat)
      (last : lead.toNat = 0xF4 → a.toNat ≤ 0x8F) : Sequence lead [a, b, c]

/-- The bytes lie in the ranges, one in each. -/
def Within : List (UInt8 × UInt8) → Bytes → Prop :=
  List.Forall₂ fun range b => range.1 ≤ b ∧ b ≤ range.2

section
variable {ranges : List (UInt8 × UInt8)} {lead : UInt8} {more rest left : Bytes}

theorem fit_append (h : Within ranges more) (rest : Bytes) :
    fit ranges (more ++ rest) = (more, rest) := by
  induction h with
  | nil => rfl
  | cons hb tail ih => simp [fit, hb, ih]

theorem within_fit (h : (fit ranges rest).1.length = ranges.length) :
    Within ranges (fit ranges rest).1 := by
  fun_induction fit ranges rest with
  | case1 low high ranges b rest hb ih =>
    exact .cons hb (ih (Nat.succ.inj h))
  | case2 => cases h
  | case3 ranges rest hnot =>
    cases ranges with
    | nil => exact .nil
    | cons => cases h

theorem Within.of_cons {low high : UInt8} (h : Within ((low, high) :: ranges) more) :
    ∃ b left, more = b :: left ∧ (low.toNat ≤ b.toNat ∧ b.toNat ≤ high.toNat) ∧
      Within ranges left := by
  cases h with
  | cons hb tail =>
    simp only [UInt8.le_iff_toNat_le] at hb
    exact ⟨_, _, rfl, hb, tail⟩

theorem Within.of_nil (h : Within [] more) : more = [] := List.forall₂_nil_left_iff.mp h

theorem Within.cons {low high b : UInt8} (hb : low.toNat ≤ b.toNat ∧ b.toNat ≤ high.toNat)
    (h : Within ranges more) : Within ((low, high) :: ranges) (b :: more) := by
  simp only [← UInt8.le_iff_toNat_le] at hb
  exact List.Forall₂.cons hb h

/-- After a lead of three bytes, a range for the first byte and one for the second. -/
private theorem sequence_of_two {low high : UInt8} (hlead : 0xE0 ≤ lead.toNat ∧ lead.toNat < 0xF0)
    (hlow : 0x80 ≤ low.toNat) (hhigh : high.toNat ≤ 0xBF)
    (short : lead.toNat = 0xE0 → 0xA0 ≤ low.toNat)
    (surrogate : lead.toNat = 0xED → high.toNat ≤ 0x9F)
    (h : Within [(low, high), (0x80, 0xBF)] more) : Sequence lead more := by
  obtain ⟨a, _, rfl, ha, h⟩ := h.of_cons
  obtain ⟨b, _, rfl, hb, h⟩ := h.of_cons
  cases h.of_nil
  exact .three hlead ⟨by omega, by omega⟩ hb (by omega) (by omega)

private theorem sequence_of_three {low high : UInt8}
    (hlead : 0xF0 ≤ lead.toNat ∧ lead.toNat < 0xF5) (hlow : 0x80 ≤ low.toNat)
    (hhigh : high.toNat ≤ 0xBF) (short : lead.toNat = 0xF0 → 0x90 ≤ low.toNat)
    (last : lead.toNat = 0xF4 → high.toNat ≤ 0x8F)
    (h : Within [(low, high), (0x80, 0xBF), (0x80, 0xBF)] more) : Sequence lead more := by
  obtain ⟨a, _, rfl, ha, h⟩ := h.of_cons
  obtain ⟨b, _, rfl, hb, h⟩ := h.of_cons
  obtain ⟨c, _, rfl, hc, h⟩ := h.of_cons
  cases h.of_nil
  exact .four hlead ⟨by omega, by omega⟩ hb hc (by omega) (by omega)

/-- The ranges after a lead keep to the bytes of a character. -/
theorem sequence_of_tails (ht : tails lead = some ranges) (h : Within ranges more) :
    Sequence lead more := by
  simp only [tails, UInt8.lt_iff_toNat_lt, ← UInt8.toNat_inj, UInt8.reduceToNat] at ht
  split at ht
  · next hlead =>
    cases ht
    cases h.of_nil
    exact .one hlead
  split at ht
  · cases ht
  split at ht
  · next hlead =>
    cases ht
    obtain ⟨a, _, rfl, ha, h⟩ := h.of_cons
    cases h.of_nil
    exact .two ⟨by omega, hlead⟩ ha
  split at ht
  · cases ht
    exact sequence_of_two (by omega) (by decide) (by decide) (fun _ => by decide) (by omega) h
  split at ht
  · cases ht
    exact sequence_of_two (by omega) (by decide) (by decide) (by omega) (fun _ => by decide) h
  split at ht
  · cases ht
    exact sequence_of_two (by omega) (by decide) (by decide) (by omega) (by omega) h
  split at ht
  · cases ht
    exact sequence_of_three (by omega) (by decide) (by decide) (fun _ => by decide) (by omega) h
  split at ht
  · cases ht
    exact sequence_of_three (by omega) (by decide) (by decide) (by omega) (by omega) h
  split at ht
  · cases ht
    exact sequence_of_three (by omega) (by decide) (by decide) (by omega) (fun _ => by decide) h
  · cases ht

/-- The bytes of a character are in the ranges after its lead. -/
theorem Sequence.exists_tails (h : Sequence lead more) :
    ∃ ranges, tails lead = some ranges ∧ Within ranges more := by
  simp only [tails, UInt8.lt_iff_toNat_lt, ← UInt8.toNat_inj, UInt8.reduceToNat]
  cases h with
  | one hlead => exact ⟨[], if_pos hlead, .nil⟩
  | two hlead ha =>
    refine ⟨[(0x80, 0xBF)], ?_, .cons ha .nil⟩
    rw [if_neg (by omega), if_neg (by omega), if_pos hlead.2]
  | three hlead ha hb short surrogate =>
    rw [if_neg (by omega), if_neg (by omega), if_neg (by omega)]
    by_cases hshort : lead.toNat = 0xE0
    · exact ⟨_, if_pos hshort, .cons ⟨short hshort, ha.2⟩ (.cons hb .nil)⟩
    rw [if_neg hshort]
    by_cases hsurrogate : lead.toNat = 0xED
    · exact ⟨_, if_pos hsurrogate, .cons ⟨ha.1, surrogate hsurrogate⟩ (.cons hb .nil)⟩
    rw [if_neg hsurrogate]
    exact ⟨_, if_pos hlead.2, .cons ha (.cons hb .nil)⟩
  | four hlead ha hb hc short last =>
    rw [if_neg (by omega), if_neg (by omega), if_neg (by omega), if_neg (by omega),
      if_neg (by omega), if_neg (by omega)]
    by_cases hshort : lead.toNat = 0xF0
    · exact ⟨_, if_pos hshort, .cons ⟨short hshort, ha.2⟩ (.cons hb (.cons hc .nil))⟩
    rw [if_neg hshort]
    by_cases hmiddle : lead.toNat < 0xF4
    · exact ⟨_, if_pos hmiddle, .cons ha (.cons hb (.cons hc .nil))⟩
    rw [if_neg hmiddle]
    have hlast : lead.toNat = 0xF4 := by omega
    exact ⟨_, if_pos hlast, .cons ⟨ha.1, last hlast⟩ (.cons hb (.cons hc .nil))⟩

theorem piece_append (h : Sequence lead more) (rest : Bytes) :
    piece lead (more ++ rest) = (some (Char.ofNat (codePoint lead more)), rest) := by
  obtain ⟨ranges, htails, hmore⟩ := h.exists_tails
  have hlen : more.length = ranges.length := (List.Forall₂.length_eq hmore).symm
  simp only [piece, htails, fit_append hmore, if_pos hlen]

theorem sequence_of_piece {c : Char} (h : piece lead rest = (some c, left)) :
    ∃ more, rest = more ++ left ∧ Sequence lead more ∧ c = Char.ofNat (codePoint lead more) := by
  unfold piece at h
  split at h
  · cases h
  · next ranges htails =>
    dsimp only at h
    split at h
    · next hlen =>
      cases h
      exact ⟨_, (append_fit ranges rest).symm, sequence_of_tails htails (within_fit hlen), rfl⟩
    · cases h

end

section
variable {lead a b c : UInt8}

theorem codePoint_one (h : lead.toNat < 0x80) : codePoint lead [] = lead.toNat := by
  simp only [codePoint, leadBits, List.foldl_nil, UInt8.lt_iff_toNat_lt, UInt8.reduceToNat,
    if_pos h]

theorem codePoint_two (h : 0xC2 ≤ lead.toNat ∧ lead.toNat < 0xE0) (ha : Tail a) :
    codePoint lead [a] = (lead.toNat - 0xC0) * 64 + (a.toNat - 0x80) := by
  have := ha.1
  have := ha.2
  simp only [codePoint, leadBits, List.foldl_cons, List.foldl_nil, UInt8.lt_iff_toNat_lt,
    UInt8.reduceToNat]
  rw [if_neg (by omega), if_pos h.2]
  omega

theorem codePoint_three (h : 0xE0 ≤ lead.toNat ∧ lead.toNat < 0xF0) (ha : Tail a) (hb : Tail b) :
    codePoint lead [a, b] =
      (lead.toNat - 0xE0) * 4096 + (a.toNat - 0x80) * 64 + (b.toNat - 0x80) := by
  obtain ⟨ha, ha'⟩ := ha
  obtain ⟨hb, hb'⟩ := hb
  simp only [codePoint, leadBits, List.foldl_cons, List.foldl_nil, UInt8.lt_iff_toNat_lt,
    UInt8.reduceToNat]
  rw [if_neg (by omega), if_neg (by omega), if_pos h.2]
  omega

theorem codePoint_four (h : 0xF0 ≤ lead.toNat ∧ lead.toNat < 0xF5) (ha : Tail a) (hb : Tail b)
    (hc : Tail c) : codePoint lead [a, b, c] = (lead.toNat - 0xF0) * 262144 +
      (a.toNat - 0x80) * 4096 + (b.toNat - 0x80) * 64 + (c.toNat - 0x80) := by
  obtain ⟨ha, ha'⟩ := ha
  obtain ⟨hb, hb'⟩ := hb
  obtain ⟨hc, hc'⟩ := hc
  simp only [codePoint, leadBits, List.foldl_cons, List.foldl_nil, UInt8.lt_iff_toNat_lt,
    UInt8.reduceToNat]
  rw [if_neg (by omega), if_neg (by omega), if_neg (by omega)]
  omega

end

private theorem exists_byte {n : Nat} (h : n < 256) :
    ∃ b : UInt8, UInt8.ofNat n = b ∧ b.toNat = n :=
  ⟨UInt8.ofNat n, rfl, by rw [UInt8.toNat_ofNat']; omega⟩

/-- A character is encoded as the bytes of a character, and these say which one. -/
theorem sequence_encodeChar (x : Char) : ∃ lead more, String.utf8EncodeChar x = lead :: more ∧
    Sequence lead more ∧ Char.ofNat (codePoint lead more) = x := by
  obtain ⟨v, hv⟩ : ∃ v, v = x.val.toNat := ⟨_, rfl⟩
  have hvalid : v < 0xD800 ∨ 0xDFFF < v ∧ v < 0x110000 := hv ▸ x.valid
  have hx : ∀ n, n = v → Char.ofNat n = x := by
    rintro n rfl
    rw [hv]
    exact Char.ofNat_toNat x
  simp only [String.utf8EncodeChar, ← hv]
  split
  · obtain ⟨lead, he, hlead⟩ := exists_byte (n := v) (by omega)
    rw [he]
    refine ⟨lead, [], rfl, .one (by omega), hx _ ?_⟩
    rw [codePoint_one (by omega), hlead]
  split
  · obtain ⟨lead, he, hlead⟩ := exists_byte (n := v / 64 % 32 + 192) (by omega)
    obtain ⟨a, hea, ha⟩ := exists_byte (n := v % 64 + 128) (by omega)
    rw [he, hea]
    refine ⟨lead, [a], rfl, .two (by omega) ⟨by omega, by omega⟩, hx _ ?_⟩
    rw [codePoint_two (by omega) ⟨by omega, by omega⟩]
    omega
  split
  · obtain ⟨lead, he, hlead⟩ := exists_byte (n := v / 4096 % 16 + 224) (by omega)
    obtain ⟨a, hea, ha⟩ := exists_byte (n := v / 64 % 64 + 128) (by omega)
    obtain ⟨b, heb, hb⟩ := exists_byte (n := v % 64 + 128) (by omega)
    rw [he, hea, heb]
    refine ⟨lead, [a, b], rfl, .three (by omega) ⟨by omega, by omega⟩ ⟨by omega, by omega⟩
      (by omega) (by omega), hx _ ?_⟩
    rw [codePoint_three (by omega) ⟨by omega, by omega⟩ ⟨by omega, by omega⟩]
    omega
  · obtain ⟨lead, he, hlead⟩ := exists_byte (n := v / 262144 % 8 + 240) (by omega)
    obtain ⟨a, hea, ha⟩ := exists_byte (n := v / 4096 % 64 + 128) (by omega)
    obtain ⟨b, heb, hb⟩ := exists_byte (n := v / 64 % 64 + 128) (by omega)
    obtain ⟨c, hec, hc⟩ := exists_byte (n := v % 64 + 128) (by omega)
    rw [he, hea, heb, hec]
    refine ⟨lead, [a, b, c], rfl, .four (by omega) ⟨by omega, by omega⟩ ⟨by omega, by omega⟩
      ⟨by omega, by omega⟩ (by omega) (by omega), hx _ ?_⟩
    rw [codePoint_four (by omega) ⟨by omega, by omega⟩ ⟨by omega, by omega⟩ ⟨by omega, by omega⟩]
    omega

private theorem toNat_val_ofNat {n : Nat} (h : n < 0xD800 ∨ 0xDFFF < n ∧ n < 0x110000) :
    (Char.ofNat n).val.toNat = n := by
  rw [Char.ofNat, dif_pos h]
  rfl

private theorem ofNat_eq {n : Nat} {b : UInt8} (h : n = b.toNat) : UInt8.ofNat n = b := by
  rw [h, UInt8.ofNat_toNat]

/-- The bytes of a character are what the character is encoded as. -/
theorem Sequence.encodeChar {lead : UInt8} {more : Bytes} (h : Sequence lead more) :
    String.utf8EncodeChar (Char.ofNat (codePoint lead more)) = lead :: more := by
  cases h with
  | one hlead =>
    rw [codePoint_one hlead]
    simp only [String.utf8EncodeChar]
    rw [toNat_val_ofNat (by omega), if_pos (by omega), ofNat_eq rfl]
  | @two a hlead ha =>
    rw [codePoint_two hlead ha]
    obtain ⟨ha, ha'⟩ := ha
    simp only [String.utf8EncodeChar]
    rw [toNat_val_ofNat (by omega), if_neg (by omega), if_pos (by omega),
      ofNat_eq (b := lead) (by omega), ofNat_eq (b := a) (by omega)]
  | @three a b hlead ha hb short surrogate =>
    rw [codePoint_three hlead ha hb]
    obtain ⟨ha, ha'⟩ := ha
    obtain ⟨hb, hb'⟩ := hb
    simp only [String.utf8EncodeChar]
    rw [toNat_val_ofNat (by omega), if_neg (by omega), if_neg (by omega), if_pos (by omega),
      ofNat_eq (b := lead) (by omega), ofNat_eq (b := a) (by omega), ofNat_eq (b := b) (by omega)]
  | @four a b c hlead ha hb hc short last =>
    rw [codePoint_four hlead ha hb hc]
    obtain ⟨ha, ha'⟩ := ha
    obtain ⟨hb, hb'⟩ := hb
    obtain ⟨hc, hc'⟩ := hc
    simp only [String.utf8EncodeChar]
    rw [toNat_val_ofNat (by omega), if_neg (by omega), if_neg (by omega), if_neg (by omega),
      ofNat_eq (b := lead) (by omega), ofNat_eq (b := a) (by omega), ofNat_eq (b := b) (by omega),
      ofNat_eq (b := c) (by omega)]

theorem pieces_encodeChar_append (x : Char) (rest : Bytes) :
    pieces (String.utf8EncodeChar x ++ rest) = some x :: pieces rest := by
  obtain ⟨lead, more, hx, hsequence, hpoint⟩ := sequence_encodeChar x
  rw [hx, List.cons_append, pieces, piece_append hsequence rest, hpoint]

/-- An encoding falls into the characters of the text. -/
theorem pieces_encode (s : String) : pieces (encode s) = s.toList.map some := by
  rw [encode]
  induction s.toList with
  | nil => rw [List.flatMap_nil, pieces, List.map_nil]
  | cons x xs ih => rw [List.flatMap_cons, pieces_encodeChar_append, ih, List.map_cons]

/-- Bytes that fall into characters only are the encoding of these. -/
theorem flatMap_encodeChar_of_pieces {bs : Bytes} {xs : List Char} (h : pieces bs = xs.map some) :
    xs.flatMap String.utf8EncodeChar = bs := by
  fun_induction pieces bs generalizing xs with
  | case1 =>
    cases xs with
    | nil => rfl
    | cons => cases h
  | case2 lead rest hle ih =>
    cases xs with
    | nil => cases h
    | cons x xs =>
      obtain ⟨hx, hxs⟩ := List.cons.inj h
      obtain ⟨more, hrest, hsequence, rfl⟩ := sequence_of_piece (Prod.ext hx rfl)
      rw [List.flatMap_cons, hsequence.encodeChar, ih hxs, List.cons_append, ← hrest]

/-- Where every piece is a character, the lossy decoding has just these characters. -/
theorem pieces_of_all_isSome {bs : Bytes} (h : (pieces bs).all Option.isSome) :
    pieces bs = (lossy bs).toList.map some := by
  have hsome : ∀ x ∈ pieces bs, some (x.getD (Char.ofNat 0xFFFD)) = x := by
    intro x hx
    obtain ⟨y, rfl⟩ := Option.isSome_iff_exists.mp (List.all_eq_true.mp h x hx)
    rfl
  rw [lossy, String.toList_ofList, List.map_map]
  exact ((List.map_congr_left hsome).trans (List.map_id _)).symm

/-- A byte string is decoded to the text that it is the encoding of. -/
theorem decode?_eq_some_iff {bs : Bytes} {s : String} : decode? bs = some s ↔ encode s = bs := by
  constructor
  · intro h
    unfold decode? at h
    split at h
    · next hall =>
      cases h
      exact flatMap_encodeChar_of_pieces (pieces_of_all_isSome hall)
    · cases h
  · intro h
    have hall : (pieces bs).all Option.isSome := by simp [← h, pieces_encode]
    have hlossy : lossy bs = s := by
      rw [lossy, ← h, pieces_encode, List.map_map]
      exact (congrArg String.ofList (List.map_id s.toList)).trans String.ofList_toList
    rw [decode?, if_pos hall, hlossy]

/-- Bytes that cannot be decoded show a replacement character. -/
theorem replacement_mem_lossy {bs : Bytes} (h : decode? bs = none) :
    Char.ofNat 0xFFFD ∈ (lossy bs).toList := by
  unfold decode? at h
  split at h
  · cases h
  · next hall =>
    obtain ⟨x, hx, hnone⟩ : ∃ x ∈ pieces bs, x = none := by simpa using hall
    rw [lossy, String.toList_ofList, List.mem_map]
    exact ⟨x, hx, by rw [hnone]; rfl⟩

/-- The encoding is as long as the text takes up in memory. -/
theorem length_encode (s : String) : (encode s).length = s.utf8ByteSize := by
  have hbytes : s.toByteArray = (encode s).toByteArray := by
    rw [← String.ofList_toList (s := s), String.toByteArray_ofList, encode, String.toList_ofList]
    rfl
  rw [String.utf8ByteSize, hbytes, List.size_toByteArray]

end HelloNegotiation.Text.Utf8
