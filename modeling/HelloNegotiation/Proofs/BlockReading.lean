import HelloNegotiation.Block
import HelloNegotiation.Proofs.EntryReading

/-!
# Reading a block

A block is accepted when its declared length holds entries of the grammar and nothing else, and
its members are what the entries stand for. Otherwise the first fault is reported: that of the
declared length, or that of the first faulty entry. What follows the declared length is never
looked at.
-/
namespace HelloNegotiation

namespace Extension

/-- Extensions read one after another are entries one after another. -/
theorem reads_iff {message : HelloMessage} {c d : Catalogue} (hc : c.Reachable) {bs rest : Bytes}
    {xs : List Extension} :
    (item message).Reads ⟨bs, c⟩ xs ⟨rest, d⟩ ↔
      ∃ es : List Entry, bs = Entry.wires es ++ rest ∧ (∀ e ∈ es, e.Allowed message) ∧
        xs = es.map Entry.decoded ∧ d = c.resolveAll (es.map Entry.id) := by
  constructor
  · intro h
    generalize hs : (⟨bs, c⟩ : Source) = s at h
    generalize ht : (⟨rest, d⟩ : Source) = t at h
    induction h generalizing bs c with
    | nil s =>
      cases hs
      cases ht
      exact ⟨[], rfl, by simp, rfl, rfl⟩
    | cons hr tail ih =>
      subst hs
      obtain ⟨e, he, rfl, rfl, hcat⟩ := of_run_read hc hr
      obtain ⟨es, hbs, hes, rfl, rfl⟩ := ih (hcat ▸ hc.resolve e.id) rfl ht
      refine ⟨e :: es, ?_, ?_, rfl, by rw [hcat]; rfl⟩
      · rw [hbs, Entry.wires_cons, List.append_assoc]
      · simpa using ⟨he, hes⟩
  · intro h
    obtain ⟨es, rfl, hes, rfl, rfl⟩ := h
    induction es generalizing c with
    | nil => exact .nil _
    | cons e es ih =>
      have he := hes e List.mem_cons_self
      have hread := run_read_wire hc he (Entry.wires es ++ rest)
      rw [← List.append_assoc] at hread
      exact .cons hread (ih (hc.resolve e.id) fun d hd => hes d (List.mem_cons_of_mem e hd))

/-- Reading to the end accepts entries that use up all bytes. -/
theorem run_all_eq_ok_iff {message : HelloMessage} {c : Catalogue} (hc : c.Reachable)
    {body : Bytes} {xs : List Extension} {t : Source} :
    (item message).all.run ⟨body, c⟩ = .ok xs t ↔
      ∃ es : List Entry, body = Entry.wires es ∧ (∀ e ∈ es, e.Allowed message) ∧
        xs = es.map Entry.decoded ∧ t = ⟨[], c.resolveAll (es.map Entry.id)⟩ := by
  obtain ⟨rest, d⟩ := t
  rw [Item.run_all_eq_ok_iff, reads_iff hc]
  constructor
  · intro h
    obtain ⟨⟨es, hbs, hes, hxs, hd⟩, hrest⟩ := h
    have hnil : rest = [] := hrest
    subst hnil hd
    exact ⟨es, by rw [hbs, List.append_nil], hes, hxs, rfl⟩
  · intro h
    obtain ⟨es, hbs, hes, hxs, ht⟩ := h
    cases ht
    exact ⟨⟨es, by rw [hbs, List.append_nil], hes, hxs, rfl⟩, rfl⟩

/-- Reading to the end reports the first faulty entry. -/
theorem run_all_eq_error_iff {message : HelloMessage} {c : Catalogue} (hc : c.Reachable)
    {body : Bytes} {f : Fault} :
    (∃ t, (item message).all.run ⟨body, c⟩ = .error f t) ↔
      ∃ (es : List Entry) (tail : Bytes), body = Entry.wires es ++ tail ∧
        (∀ e ∈ es, e.Allowed message) ∧ Entry.Faulty message tail f := by
  constructor
  · intro h
    obtain ⟨t, h⟩ := h
    obtain ⟨xs, ⟨tail, d⟩, hreads, htail, hread⟩ := Item.run_all_eq_error_iff.mp h
    obtain ⟨es, hbs, hes, -, rfl⟩ := (reads_iff hc).mp hreads
    have hd := hc.resolveAll (es.map Entry.id)
    exact ⟨es, tail, hbs, hes, (run_read_eq_error_iff hd htail).mp ⟨t, hread⟩⟩
  · intro h
    obtain ⟨es, tail, hbs, hes, hfaulty⟩ := h
    have hd := hc.resolveAll (es.map Entry.id)
    have hreads := (reads_iff hc).mpr ⟨es, hbs, hes, rfl, rfl⟩
    obtain ⟨t, hread⟩ := (run_read_eq_error_iff hd hfaulty.ne_nil).mpr hfaulty
    exact ⟨t, Item.run_all_eq_error_iff.mpr ⟨_, _, hreads, hfaulty.ne_nil, hread⟩⟩

end Extension

namespace Block

/-- Too few bytes for a length, a length that claims too much, or a length and its bytes. -/
theorem length_cases (bs : Bytes) :
    bs.length < 2 ∨
    (∃ L : UInt16, ∃ rest, bs = Word.bytes L ++ rest ∧ rest.length < L.toNat) ∨
    ∃ L : UInt16, ∃ body rest, bs = Word.bytes L ++ body ++ rest ∧ body.length = L.toNat := by
  rcases Word.length_lt_or_bytes bs with hshort | ⟨L, tail, rfl⟩
  · exact .inl hshort
  · rcases length_lt_or_split L.toNat tail with hcut | ⟨body, rest, rfl, hlen⟩
    · exact .inr (.inl ⟨L, tail, rfl, hcut⟩)
    · exact .inr (.inr ⟨L, body, rest, (List.append_assoc _ _ _).symm, hlen⟩)

section
variable {message : HelloMessage} {c : Catalogue}

theorem run_read_of_short {bs : Bytes} (h : bs.length < 2) :
    (read message).run ⟨bs, c⟩ = .error .extensionsLength ⟨bs, c⟩ := by
  simp only [read, EStateM.run_bind, EStateM.run_adaptExcept, Source.run_lift,
    Reader.run_word_of_lt h]

theorem run_read_of_cut {L : UInt16} {rest : Bytes} (h : rest.length < L.toNat) :
    (read message).run ⟨Word.bytes L ++ rest, c⟩ = .error .extensionsLength ⟨rest, c⟩ := by
  simp only [read, EStateM.run_bind, EStateM.run_adaptExcept, Source.run_lift,
    Reader.run_word_bytes, Reader.run_take_of_lt h]

/-- The members are read from the declared bytes alone. -/
theorem run_read_of_body {L : UInt16} {body : Bytes} (rest : Bytes) (h : body.length = L.toNat) :
    (read message).run ⟨Word.bytes L ++ body ++ rest, c⟩ =
      match (Extension.item message).all.run ⟨body, c⟩ with
      | .ok members t => .ok ⟨members, none⟩ ⟨rest, t.catalogue⟩
      | .error f t => .error f ⟨rest, t.catalogue⟩ := by
  have htake : (Reader.take L.toNat).run (body ++ rest) = .ok body rest :=
    Reader.run_take_eq_ok_iff.mpr ⟨rfl, h⟩
  simp only [read, EStateM.run_bind, EStateM.run_adaptExcept, Source.run_lift, List.append_assoc,
    Reader.run_word_bytes, htake, Source.run_within]
  cases (Extension.item message).all.run ⟨body, c⟩ <;> rfl

/-- What reading a block gives, and the bytes it leaves. -/
def outcome : EStateM.Result Fault Source Block → Except Fault (List Extension) × Bytes
  | .ok b s => (.ok b.members, s.rest)
  | .error f s => (.error f, s.rest)

/-- The outcome is that of reading the declared bytes alone; what follows them is left. -/
theorem outcome_of_body {L : UInt16} {body : Bytes} (rest : Bytes) (h : body.length = L.toNat) :
    outcome ((read message).run ⟨Word.bytes L ++ body ++ rest, c⟩) =
      (match (Extension.item message).all.run ⟨body, c⟩ with
        | .ok members _ => .ok members
        | .error f _ => .error f, rest) := by
  rw [run_read_of_body rest h]
  cases (Extension.item message).all.run ⟨body, c⟩ <;> rfl

theorem outcome_eq_ok_iff (hc : c.Reachable) {bs rest : Bytes} {members : List Extension} :
    outcome ((read message).run ⟨bs, c⟩) = (.ok members, rest) ↔
      ∃ (L : UInt16) (es : List Entry), bs = Word.bytes L ++ Entry.wires es ++ rest ∧
        (Entry.wires es).length = L.toNat ∧ (∀ e ∈ es, e.Allowed message) ∧
        members = es.map Entry.decoded := by
  constructor
  · intro h
    rcases length_cases bs with hshort | ⟨L, left, rfl, hcut⟩ | ⟨L, body, left, rfl, hlen⟩
    · rw [run_read_of_short hshort] at h
      cases h
    · rw [run_read_of_cut hcut] at h
      cases h
    · rw [outcome_of_body left hlen] at h
      cases hall : (Extension.item message).all.run ⟨body, c⟩ with
      | error f t =>
        rw [hall] at h
        cases h
      | ok xs t =>
        rw [hall] at h
        cases h
        obtain ⟨es, rfl, hes, hxs, -⟩ := (Extension.run_all_eq_ok_iff hc).mp hall
        exact ⟨L, es, rfl, hlen, hes, hxs⟩
  · intro h
    obtain ⟨L, es, rfl, hlen, hes, rfl⟩ := h
    have hall := (Extension.run_all_eq_ok_iff hc).mpr ⟨es, rfl, hes, rfl, rfl⟩
    rw [outcome_of_body rest hlen, hall]

theorem outcome_eq_error_iff (hc : c.Reachable) {bs rest : Bytes} {f : Fault} :
    outcome ((read message).run ⟨bs, c⟩) = (.error f, rest) ↔
      (f = .extensionsLength ∧
        (bs.length < 2 ∧ bs = rest ∨
          ∃ L : UInt16, bs = Word.bytes L ++ rest ∧ rest.length < L.toNat)) ∨
      ∃ (L : UInt16) (es : List Entry) (tail : Bytes),
        bs = Word.bytes L ++ (Entry.wires es ++ tail) ++ rest ∧
        (Entry.wires es ++ tail).length = L.toNat ∧ (∀ e ∈ es, e.Allowed message) ∧
        Entry.Faulty message tail f := by
  constructor
  · intro h
    rcases length_cases bs with hshort | ⟨L, left, rfl, hcut⟩ | ⟨L, body, left, rfl, hlen⟩
    · rw [run_read_of_short hshort] at h
      cases h
      exact .inl ⟨rfl, .inl ⟨hshort, rfl⟩⟩
    · rw [run_read_of_cut hcut] at h
      cases h
      exact .inl ⟨rfl, .inr ⟨L, rfl, hcut⟩⟩
    · rw [outcome_of_body left hlen] at h
      cases hall : (Extension.item message).all.run ⟨body, c⟩ with
      | ok xs t =>
        rw [hall] at h
        cases h
      | error g t =>
        rw [hall] at h
        cases h
        obtain ⟨es, tail, rfl, hes, hfaulty⟩ := (Extension.run_all_eq_error_iff hc).mp ⟨t, hall⟩
        exact .inr ⟨L, es, tail, rfl, hlen, hes, hfaulty⟩
  · intro h
    rcases h with ⟨rfl, ⟨hshort, rfl⟩ | ⟨L, rfl, hcut⟩⟩ | ⟨L, es, tail, rfl, hlen, hes, hfaulty⟩
    · rw [run_read_of_short hshort]
      rfl
    · rw [run_read_of_cut hcut]
      rfl
    · obtain ⟨t, hall⟩ :=
        (Extension.run_all_eq_error_iff hc).mpr ⟨es, tail, rfl, hes, hfaulty⟩
      rw [outcome_of_body rest hlen, hall]

end

/-- Reading a block accepts just its grammar, reports the first fault otherwise, and in both cases
does not depend on what follows the declared length. -/
theorem read_follows_grammar (message : HelloMessage) {c : Catalogue} (hc : c.Reachable)
    (bs : Bytes) :
    (∀ members rest, outcome ((read message).run ⟨bs, c⟩) = (.ok members, rest) ↔
      ∃ (L : UInt16) (es : List Entry), bs = Word.bytes L ++ Entry.wires es ++ rest ∧
        (Entry.wires es).length = L.toNat ∧ (∀ e ∈ es, e.Allowed message) ∧
        members = es.map Entry.decoded) ∧
    (∀ f rest, outcome ((read message).run ⟨bs, c⟩) = (.error f, rest) ↔
      (f = .extensionsLength ∧
        (bs.length < 2 ∧ bs = rest ∨
          ∃ L : UInt16, bs = Word.bytes L ++ rest ∧ rest.length < L.toNat)) ∨
      ∃ (L : UInt16) (es : List Entry) (tail : Bytes),
        bs = Word.bytes L ++ (Entry.wires es ++ tail) ++ rest ∧
        (Entry.wires es ++ tail).length = L.toNat ∧ (∀ e ∈ es, e.Allowed message) ∧
        Entry.Faulty message tail f) ∧
    (∀ (L : UInt16) (body rest rest' : Bytes), bs = Word.bytes L ++ body ++ rest →
      body.length = L.toNat →
      outcome ((read message).run ⟨Word.bytes L ++ body ++ rest', c⟩) =
        ((outcome ((read message).run ⟨bs, c⟩)).1, rest')) := by
  refine ⟨fun _ _ => outcome_eq_ok_iff hc, fun _ _ => outcome_eq_error_iff hc, ?_⟩
  intro L body rest rest' hbs hlen
  rw [hbs, outcome_of_body rest' hlen, outcome_of_body rest hlen]

/-- An advertisement that claims four bytes where its block has two left. -/
theorem read_overlapping :
    Catalogue.initial.Reachable ∧
    outcome ((read .serverHello).run
      ⟨[0x00, 0x06, 0x33, 0x74, 0x00, 0x04, 0x02, 0x68, 0x32, 0x00], .initial⟩) =
        (.error .extensionsLength, [0x32, 0x00]) := by
  have hfaulty : Entry.Faulty .serverHello (Word.bytes 0x3374 ++ Word.bytes 4 ++ [0x02, 0x68])
      .extensionsLength := .length (by decide)
  have hreach := Catalogue.Reachable.initial
  refine ⟨hreach, ((read_follows_grammar .serverHello hreach _).2.1 _ _).mpr (.inr ?_)⟩
  exact ⟨6, [], _, by decide, by decide, by simp, hfaulty⟩

end Block

end HelloNegotiation
