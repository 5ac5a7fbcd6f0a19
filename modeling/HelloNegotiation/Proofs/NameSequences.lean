import HelloNegotiation.Npn
import HelloNegotiation.Proofs.Framing
import HelloNegotiation.Proofs.ItemSequences
import Mathlib.Data.List.Induction

/-!
# Names one after another, and which of them repeat

A list of names stands on the wire as the names one after another; reading to the end accepts just
that, and otherwise reports what is wrong with the first name that cannot be read. An advertisement
keeps each name where it stands first, and what it leaves out are the repeats.
-/
namespace HelloNegotiation.ProtocolName

/-- The name of HTTP/2. -/
def h2 : ProtocolName := ⟨[0x68, 0x32], by decide, by decide⟩

/-- Names as they stand on the wire. -/
def wires (ps : List ProtocolName) : Bytes := ps.flatMap wire

@[simp] theorem wires_nil : wires [] = [] := rfl

@[simp] theorem wires_cons (p : ProtocolName) (ps : List ProtocolName) :
    wires (p :: ps) = p.wire ++ wires ps := rfl

theorem length_wires (ps : List ProtocolName) : (wires ps).length = total wireLength ps := by
  induction ps with
  | nil => rfl
  | cons p ps ih => simp [ih]

theorem reads_iff {bs rest : Bytes} {ps : List ProtocolName} :
    item.Reads bs ps rest ↔ bs = wires ps ++ rest := by
  constructor
  · intro h
    induction h with
    | nil s => rfl
    | cons hr tail ih => rw [of_run_read hr, ih, wires_cons, List.append_assoc]
  · intro h
    induction ps generalizing bs with
    | nil => exact h ▸ .nil _
    | cons p ps ih =>
      rw [wires_cons, List.append_assoc] at h
      exact h ▸ .cons (run_read_wire p _) (ih rfl)

/-- Reading names to the end accepts what names one after another look like, and nothing else. -/
theorem run_all_eq_ok_iff {bs rest : Bytes} {ps : List ProtocolName} :
    item.all.run bs = .ok ps rest ↔ bs = wires ps ∧ rest = [] := by
  rw [Item.run_all_eq_ok_iff, reads_iff]
  constructor
  · intro h
    obtain ⟨rfl, hrest⟩ := h
    exact ⟨by rw [show rest = [] from hrest, List.append_nil], hrest⟩
  · intro h
    obtain ⟨rfl, rfl⟩ := h
    exact ⟨(List.append_nil _).symm, rfl⟩

/-- Bytes that do not start with a name, and what is wrong with them: they say that the name is
empty, or end before it does. -/
inductive Faulty : Bytes → ReadFault → Prop
  | empty (rest : Bytes) : Faulty (0 :: rest) .invalidData
  | cut {n : UInt8} {rest : Bytes} (short : rest.length < n.toNat) :
      Faulty (n :: rest) .insufficientBytes

theorem Faulty.ne_nil {bs : Bytes} {e : ReadFault} (h : Faulty bs e) : bs ≠ [] := by
  cases h <;> exact List.cons_ne_nil _ _

/-- Bytes are faulty, or start with a name. -/
theorem faulty_or_wire {bs : Bytes} (h : bs ≠ []) :
    (∃ e, Faulty bs e) ∨ ∃ (p : ProtocolName) (rest : Bytes), bs = p.wire ++ rest := by
  obtain ⟨n, rest, rfl⟩ := List.exists_cons_of_ne_nil h
  by_cases hn : n = 0
  · subst hn
    exact .inl ⟨_, .empty rest⟩
  rcases length_lt_or_split n.toNat rest with hshort | ⟨front, tail, rfl, hlen⟩
  · exact .inl ⟨_, .cut hshort⟩
  · have hpos : 0 < n.toNat := Nat.pos_of_ne_zero fun h => hn (UInt8.toNat_inj.mp h)
    have hle : n.toNat ≤ 255 := Nat.le_of_lt_succ n.toNat_lt
    have hfirst : n = UInt8.ofNat front.length := by rw [hlen, UInt8.ofNat_toNat]
    rw [hfirst]
    exact .inr ⟨⟨front, hlen ▸ hpos, hlen ▸ hle⟩, tail, rfl⟩

theorem Faulty.run_read {bs : Bytes} {e : ReadFault} (h : Faulty bs e) :
    ∃ t, read.run bs = .error e t := by
  cases h with
  | empty rest => exact ⟨rest, run_read_zero rest⟩
  | @cut n rest short =>
    have hn : n ≠ 0 := by
      rintro rfl
      exact Nat.not_lt_zero _ short
    rw [run_read_cons hn, Reader.run_exactly_of_lt short]
    exact ⟨rest, rfl⟩

/-- Reading a name fails with just the fault of the bytes. -/
theorem run_read_eq_error_iff {bs : Bytes} {e : ReadFault} (hbs : bs ≠ []) :
    (∃ t, read.run bs = .error e t) ↔ Faulty bs e := by
  constructor
  · intro h
    obtain ⟨t, hread⟩ := h
    rcases faulty_or_wire hbs with ⟨e', hfaulty⟩ | ⟨p, rest, rfl⟩
    · obtain ⟨t', hread'⟩ := hfaulty.run_read
      cases hread.symm.trans hread'
      exact hfaulty
    · rw [run_read_wire] at hread
      cases hread
  · exact Faulty.run_read

/-- Reading names to the end reports the first one that cannot be read. -/
theorem run_all_eq_error_iff {bs : Bytes} {e : ReadFault} :
    (∃ t, item.all.run bs = .error e t) ↔
      ∃ (ps : List ProtocolName) (tail : Bytes), bs = wires ps ++ tail ∧ Faulty tail e := by
  constructor
  · intro h
    obtain ⟨t, h⟩ := h
    obtain ⟨ps, tail, hreads, htail, hread⟩ := Item.run_all_eq_error_iff.mp h
    exact ⟨ps, tail, reads_iff.mp hreads, (run_read_eq_error_iff htail).mp ⟨t, hread⟩⟩
  · intro h
    obtain ⟨ps, tail, hbs, hfaulty⟩ := h
    obtain ⟨t, hread⟩ := (run_read_eq_error_iff hfaulty.ne_nil).mpr hfaulty
    exact ⟨t, Item.run_all_eq_error_iff.mpr ⟨ps, tail, reads_iff.mpr hbs, hfaulty.ne_nil, hread⟩⟩

theorem wires_injective : Function.Injective wires := by
  intro ps qs h
  have hp : item.all.run (wires qs) = .ok ps [] := run_all_eq_ok_iff.mpr ⟨h.symm, rfl⟩
  have hq : item.all.run (wires qs) = .ok qs [] := run_all_eq_ok_iff.mpr ⟨rfl, rfl⟩
  cases hp.symm.trans hq
  rfl

/-- The names that repeat an earlier one, where those `seen` came before them all. -/
def repeats (seen : List ProtocolName) : List ProtocolName → List ProtocolName
  | [] => []
  | p :: ps => if p ∈ seen then p :: repeats (p :: seen) ps else repeats (p :: seen) ps

theorem repeats_eq_nil_iff {seen ps : List ProtocolName} :
    repeats seen ps = [] ↔ ps.Nodup ∧ ∀ p ∈ ps, p ∉ seen := by
  induction ps generalizing seen with
  | nil => simp [repeats]
  | cons p ps ih =>
    by_cases hp : p ∈ seen
    · simp [repeats, hp]
    · rw [repeats, if_neg hp, ih, List.nodup_cons]
      constructor
      · intro h
        obtain ⟨hnodup, hnew⟩ := h
        refine ⟨⟨fun hmem => hnew p hmem (by simp), hnodup⟩, ?_⟩
        intro q hq
        rcases List.mem_cons.mp hq with rfl | hq
        · exact hp
        · exact fun hseen => hnew q hq (List.mem_cons_of_mem _ hseen)
      · intro h
        obtain ⟨⟨hmem, hnodup⟩, hnew⟩ := h
        refine ⟨hnodup, ?_⟩
        intro q hq hseen
        rcases List.mem_cons.mp hseen with rfl | hseen
        · exact hmem hq
        · exact hnew q (List.mem_cons_of_mem _ hq) hseen

end HelloNegotiation.ProtocolName

namespace HelloNegotiation.Npn
open ProtocolName

/-- A name taken in after the names `ps` stays only where it is the first of its kind. -/
theorem names_insert {n : Npn} {ps : List ProtocolName} (h : n.names = ps.eraseDups)
    (p : ProtocolName) : (n.insert p).2.names = (ps ++ [p]).eraseDups := by
  rw [List.eraseDups_append, List.cons_removeAll, ← h]
  by_cases hp : p ∈ ps
  · have hmem : p ∈ n.names := by rwa [h, List.mem_eraseDups]
    simp [insert_of_mem hmem, hp]
  · have hmem : p ∉ n.names := by rwa [h, List.mem_eraseDups]
    rw [(names_insert_of_not_mem hmem).2]
    simp [hp, List.eraseDups_cons]

/-- Names taken in one by one stay where they stand first. -/
theorem names_ofNames (ps : List ProtocolName) : (ofNames ps).names = ps.eraseDups := by
  induction ps using List.reverseRecOn with
  | nil => rfl
  | append_singleton ps p ih =>
    have hstep : ofNames (ps ++ [p]) = ((ofNames ps).insert p).2 := by simp [ofNames]
    rw [hstep]
    exact names_insert ih p

/-- The advertisement of each of the names where it stands first. -/
def firsts (ps : List ProtocolName) : Npn :=
  ⟨ps.eraseDups, by rw [← names_ofNames]; exact (ofNames ps).nodup⟩

theorem ofNames_eq_firsts (ps : List ProtocolName) : ofNames ps = firsts ps := by
  have h := names_ofNames ps
  cases hn : ofNames ps
  rw [hn] at h
  cases h
  rfl

theorem eraseDups_of_nodup {ps : List ProtocolName} (h : ps.Nodup) : ps.eraseDups = ps := by
  induction ps with
  | nil => rfl
  | cons p ps ih =>
    obtain ⟨hp, hps⟩ := List.nodup_cons.mp h
    have hfilter : (ps.filter fun q => !q == p) = ps := by
      apply List.filter_eq_self.mpr
      intro q hq
      have hne : q ≠ p := fun e => hp (e ▸ hq)
      simpa using hne
    rw [List.eraseDups_cons, hfilter, ih hps]

/-- Distinct names stay as they are. -/
theorem firsts_names (n : Npn) : firsts n.names = n := by
  obtain ⟨names, nodup⟩ := n
  simp [firsts, eraseDups_of_nodup nodup]

private theorem wireLength_foldl_insert (n : Npn) (seen ps : List ProtocolName)
    (h : ∀ p, p ∈ seen ↔ p ∈ n.names) :
    (ps.foldl (fun n p => (n.insert p).2) n).wireLength +
        total ProtocolName.wireLength (repeats seen ps) =
      n.wireLength + total ProtocolName.wireLength ps := by
  induction ps generalizing n seen with
  | nil => rfl
  | cons p ps ih =>
    rw [List.foldl_cons]
    by_cases hp : p ∈ n.names
    · have hsame : ∀ q, q ∈ p :: seen ↔ q ∈ n.names := by
        intro q
        rw [List.mem_cons, h]
        exact ⟨fun hq => hq.elim (fun e => e ▸ hp) id, .inr⟩
      have htail := ih n (p :: seen) hsame
      rw [insert_of_mem hp, repeats, if_pos ((h p).mpr hp)]
      simp only [total_cons]
      omega
    · have hnames := (names_insert_of_not_mem hp).2
      have hmore : ∀ q, q ∈ p :: seen ↔ q ∈ (n.insert p).2.names := by
        intro q
        rw [hnames, List.mem_cons, h, List.mem_append, List.mem_singleton, or_comm]
      have hlength : (n.insert p).2.wireLength = n.wireLength + p.wireLength := by
        simp [wireLength, hnames]
      have htail := ih (n.insert p).2 (p :: seen) hmore
      rw [repeats, if_neg fun hseen => hp ((h p).mp hseen)]
      simp only [total_cons]
      omega

/-- What an advertisement leaves out of the names is the repeats, byte for byte. -/
theorem wireLength_firsts (ps : List ProtocolName) :
    (firsts ps).wireLength + total ProtocolName.wireLength (repeats [] ps) =
      total ProtocolName.wireLength ps := by
  have h := wireLength_foldl_insert empty [] ps (by simp [empty])
  rw [← ofNames_eq_firsts, ofNames, h]
  simp [empty, wireLength]

end HelloNegotiation.Npn
