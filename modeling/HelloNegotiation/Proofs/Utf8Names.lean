import HelloNegotiation.Proofs.OfferedNames
import HelloNegotiation.Proofs.Utf8Decoding

/-!
# Names offered as UTF-8 text

A text can be a name when its UTF-8 form is of 1 to 255 bytes, and a name is the text that it can
be decoded to. Texts that are offered are what is read at the other end, in the same order. The
ways to look at a name agree on every byte string (`Alpn.offers_utf8_texts`).
-/
namespace HelloNegotiation

section
variable {ε α β : Type} {f : α → Except ε β} {as : List α} {bs : List β}

theorem bind_eq_ok_iff {γ : Type} {x : Except ε β} {g : β → Except ε γ} {c : γ} :
    (x >>= g) = .ok c ↔ ∃ b, x = .ok b ∧ g b = .ok c := by
  cases x with
  | error e => simp [bind, Except.bind]
  | ok b => simp [bind, Except.bind]

/-- A list is made when each of its members is. -/
theorem mapM_eq_ok_iff : as.mapM f = .ok bs ↔ List.Forall₂ (fun a b => f a = .ok b) as bs := by
  induction as generalizing bs with
  | nil =>
    rw [List.mapM_nil, List.forall₂_nil_left_iff]
    constructor
    · intro h
      cases h
      rfl
    · rintro rfl
      rfl
  | cons a as ih =>
    rw [List.mapM_cons, List.forall₂_cons_left_iff, bind_eq_ok_iff]
    simp only [bind_eq_ok_iff, ih]
    constructor
    · rintro ⟨b, hb, cs, hcs, h⟩
      cases h
      exact ⟨b, cs, hb, hcs, rfl⟩
    · rintro ⟨b, cs, hb, hcs, rfl⟩
      exact ⟨b, hb, cs, hcs, rfl⟩

variable {P : α → Prop} {e : ε}

/-- A list can be made when each of its members can. -/
theorem exists_mapM_eq_ok_iff (hP : ∀ a, (∃ b, f a = .ok b) ↔ P a) :
    (∃ bs, as.mapM f = .ok bs) ↔ ∀ a ∈ as, P a := by
  simp only [mapM_eq_ok_iff]
  induction as with
  | nil => exact iff_of_true ⟨[], .nil⟩ (by simp)
  | cons a as ih =>
    rw [List.forall_mem_cons, ← hP a, ← ih]
    constructor
    · rintro ⟨_, h⟩
      cases h with
      | cons hb tail => exact ⟨⟨_, hb⟩, _, tail⟩
    · rintro ⟨⟨b, hb⟩, bs, hbs⟩
      exact ⟨b :: bs, .cons hb hbs⟩

/-- A list fails as one of its members does. -/
theorem exists_of_mapM_eq_error (h : as.mapM f = .error e) : ∃ a ∈ as, f a = .error e := by
  induction as with
  | nil => cases h
  | cons a as ih =>
    rw [List.mapM_cons] at h
    cases ha : f a with
    | error e' =>
      rw [ha] at h
      cases h
      exact ⟨a, List.mem_cons_self, ha⟩
    | ok b =>
      cases htail : as.mapM f with
      | error e' =>
        rw [ha, htail] at h
        cases h
        obtain ⟨a', ha', hfails⟩ := ih htail
        exact ⟨a', List.mem_cons_of_mem a ha', hfails⟩
      | ok bs =>
        rw [ha, htail] at h
        cases h

/-- Something can be made of a list when each of its members can be made. Where there is only one
fault to fail with, it otherwise fails with that. -/
theorem mapM_bind_pure_iff {γ : Type} (g : List β → γ) (hP : ∀ a, (∃ b, f a = .ok b) ↔ P a)
    (he : ∀ a e', f a = .error e' → e' = e) :
    ((∃ c, (as.mapM f >>= fun bs => pure (g bs)) = .ok c) ↔ ∀ a ∈ as, P a) ∧
    ((as.mapM f >>= fun bs => pure (g bs)) = .error e ↔ ¬ ∀ a ∈ as, P a) := by
  rw [← exists_mapM_eq_ok_iff hP]
  cases h : as.mapM f with
  | ok bs => simp [bind, Except.bind, pure, Except.pure]
  | error e' =>
    obtain ⟨a, -, ha⟩ := exists_of_mapM_eq_error h
    simp [bind, Except.bind, he a e' ha]

end

namespace ProtocolName
variable {p : ProtocolName} {bs : Bytes} {s : String}

theorem ofBytes_eq_ok_iff : ofBytes bs = .ok p ↔ p.bytes = bs := by
  constructor
  · exact bytes_of_ofBytes
  · rintro rfl
    exact p.ofBytes_bytes

theorem exists_ofBytes_eq_ok_iff :
    (∃ p, ofBytes bs = .ok p) ↔ 1 ≤ bs.length ∧ bs.length ≤ 255 := by
  unfold ofBytes
  split
  · next h => exact iff_of_true ⟨_, rfl⟩ h
  · next h => exact iff_of_false (by simp) h

theorem fault_of_ofBytes {f : Fault} (h : ofBytes bs = .error f) : f = .protocolName := by
  unfold ofBytes at h
  split at h
  · cases h
  · cases h
    rfl

theorem ofUtf8_eq_ok_iff : ofUtf8 s = .ok p ↔ Text.Utf8.encode s = p.bytes := by
  rw [ofUtf8, ofBytes_eq_ok_iff, eq_comm]

theorem exists_ofUtf8_eq_ok_iff :
    (∃ p, ofUtf8 s = .ok p) ↔ 1 ≤ s.utf8ByteSize ∧ s.utf8ByteSize ≤ 255 := by
  rw [← Text.Utf8.length_encode]
  exact exists_ofBytes_eq_ok_iff

theorem is_iff : p.is s = true ↔ Text.Utf8.encode s = p.bytes := by rw [is, beq_iff_eq, eq_comm]

theorem utf8_eq_ok_iff : p.utf8 = .ok s ↔ Text.Utf8.encode s = p.bytes := by
  rw [← Text.Utf8.decode?_eq_some_iff, utf8]
  cases Text.Utf8.decode? p.bytes <;> simp

/-- A name that is not UTF-8 is looked at with a replacement character in it. -/
theorem replacement_mem_display {f : Fault} (h : p.utf8 = .error f) :
    f = .decode ∧ Char.ofNat 0xFFFD ∈ p.display.toList := by
  unfold utf8 at h
  split at h
  · cases h
  · next hnone =>
    cases h
    exact ⟨rfl, Text.Utf8.replacement_mem_lossy hnone⟩

theorem display_of_utf8 (h : p.utf8 = .ok s) : p.display = s := by
  rw [utf8_eq_ok_iff, ← Text.Utf8.decode?_eq_some_iff] at h
  exact Text.Utf8.lossy_of_decode? h

end ProtocolName

namespace Alpn
open ProtocolName (wires ofUtf8)

section
variable {texts : List String} {a : Alpn} {ps : List ProtocolName}

theorem ofTexts_eq_ok_iff :
    ofTexts texts = .ok a ↔ ∃ ps, texts.mapM ofUtf8 = .ok ps ∧ a = .offered ps := by
  rw [ofTexts, bind_eq_ok_iff]
  simp only [pure, Except.pure, Except.ok.injEq, eq_comm]

/-- Names made from texts are decoded to them. -/
theorem map_utf8 (h : texts.mapM ofUtf8 = .ok ps) : ps.map (·.utf8) = texts.map .ok := by
  have hnames := mapM_eq_ok_iff.mp h
  clear h
  induction hnames with
  | nil => rfl
  | cons hp tail ih =>
    rw [List.map_cons, List.map_cons, ih]
    rw [ProtocolName.utf8_eq_ok_iff.mpr (ProtocolName.ofUtf8_eq_ok_iff.mp hp)]

theorem length_wires_of_mapM (h : texts.mapM ofUtf8 = .ok ps) :
    (wires ps).length = total (fun s => 1 + s.utf8ByteSize) texts := by
  have hnames := mapM_eq_ok_iff.mp h
  clear h
  induction hnames with
  | nil => rfl
  | cons hp tail ih =>
    rw [ProtocolName.wires_cons, List.length_append, ih, ProtocolName.length_wire, total_cons,
      ProtocolName.wireLength, ← ProtocolName.ofUtf8_eq_ok_iff.mp hp, Text.Utf8.length_encode]

end

/-- Texts can be offered when all of them can be names, and otherwise it is for a name that they
cannot. Texts offered in a list that fits behind its length are written so that they are read as
names of these texts in the same order. For a name of any bytes, the text that it can be decoded to,
the text that it equals and the text that it can be made from are the same; this is how it is
looked at, and a name without such a text is looked at with a replacement character. -/
theorem offers_utf8_texts :
    (∀ texts : List String,
      ((∃ a, ofTexts texts = .ok a) ↔
        ∀ s ∈ texts, 1 ≤ s.utf8ByteSize ∧ s.utf8ByteSize ≤ 255) ∧
      (ofTexts texts = .error .protocolName ↔
        ¬ ∀ s ∈ texts, 1 ≤ s.utf8ByteSize ∧ s.utf8ByteSize ≤ 255)) ∧
    (∀ texts a, ofTexts texts = .ok a → total (fun s => 1 + s.utf8ByteSize) texts ≤ 65535 →
      ∃ bs ps, a.layout.Writes bs ∧ readOffered.run bs = .ok (.offered ps) [] ∧
        ps.map (·.utf8) = texts.map .ok) ∧
    ∀ (p : ProtocolName) (s : String),
      (p.utf8 = .ok s ↔ p.is s = true) ∧ (p.is s = true ↔ ofUtf8 s = .ok p) ∧
      (p.utf8 = .ok s → p.display = s) ∧
      ∀ f, p.utf8 = .error f → f = .decode ∧ Char.ofNat 0xFFFD ∈ p.display.toList := by
  refine ⟨?_, ?_, ?_⟩
  · intro texts
    exact mapM_bind_pure_iff offered (fun _ => ProtocolName.exists_ofUtf8_eq_ok_iff)
      fun _ _ => ProtocolName.fault_of_ofBytes
  · intro texts a h hroom
    obtain ⟨ps, hps, rfl⟩ := ofTexts_eq_ok_iff.mp h
    have hle : (wires ps).length ≤ 65535 := length_wires_of_mapM hps ▸ hroom
    refine ⟨Word.framed (wires ps), ps, Layout.writes_of_denote (denote_offered hle).1, ?_,
      map_utf8 hps⟩
    exact run_readOffered_eq_ok_iff.mpr
      ⟨rfl, ps, rfl, .inr ⟨_, rfl, (Word.toNat_ofNat hle).symm⟩⟩
  · intro p s
    refine ⟨?_, ?_, ProtocolName.display_of_utf8, fun f => ProtocolName.replacement_mem_display⟩
    · rw [ProtocolName.utf8_eq_ok_iff, ProtocolName.is_iff]
    · rw [ProtocolName.is_iff, ProtocolName.ofUtf8_eq_ok_iff]

end Alpn

end HelloNegotiation
