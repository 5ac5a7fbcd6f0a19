import HelloNegotiation.Layout
import HelloNegotiation.Reader

/-! # Byte strings behind their length: read, cut off and written -/
namespace HelloNegotiation

/-- Bytes are too few, or can be split after as many as asked for. -/
theorem length_lt_or_split (n : Nat) (bs : Bytes) :
    bs.length < n ∨ ∃ front rest, bs = front ++ rest ∧ front.length = n := by
  by_cases h : bs.length < n
  · exact .inl h
  · have hle : n ≤ bs.length := by omega
    exact .inr ⟨bs.take n, bs.drop n, (List.take_append_drop n bs).symm, List.length_take_of_le hle⟩

namespace Word

/-- Bytes are too few for a word, or begin with one. -/
theorem length_lt_or_bytes (bs : Bytes) : bs.length < 2 ∨ ∃ w rest, bs = bytes w ++ rest := by
  match bs with
  | [] | [_] => exact .inl (by simp)
  | i :: j :: rest => exact .inr ⟨ofBytes i j, rest, by simp [bytes_ofBytes]⟩

@[simp] theorem length_bytes (w : UInt16) : (bytes w).length = 2 := rfl

theorem bytes_injective : Function.Injective bytes := by
  intro v w h
  simp only [bytes, List.cons.injEq, and_true] at h
  rw [← ofBytes_bytes v, ← ofBytes_bytes w, h.1, h.2]

theorem toNat_ofNat {n : Nat} (h : n ≤ 65535) : (UInt16.ofNat n).toNat = n := by
  rw [UInt16.toNat_ofNat']
  omega

theorem toNat_le (w : UInt16) : w.toNat ≤ 65535 := Nat.le_of_lt_succ w.toNat_lt

/-- Bytes behind their length in two bytes. -/
def framed (bs : Bytes) : Bytes := bytes (UInt16.ofNat bs.length) ++ bs

@[simp] theorem length_framed (bs : Bytes) : (framed bs).length = 2 + bs.length := by
  simp [framed]

theorem framed_eq {bs : Bytes} {w : UInt16} (h : bs.length = w.toNat) :
    framed bs = bytes w ++ bs := by
  rw [framed, h, UInt16.ofNat_toNat]

/-- Bytes that fit behind their length can be told from what follows them. -/
theorem framed_append_inj {bs bs' rest rest' : Bytes} (hle : bs.length ≤ 65535)
    (hle' : bs'.length ≤ 65535) (h : framed bs ++ rest = framed bs' ++ rest') :
    bs = bs' ∧ rest = rest' := by
  simp only [framed, List.append_assoc] at h
  obtain ⟨hword, htail⟩ := List.append_inj h rfl
  have hlen := congrArg UInt16.toNat (bytes_injective hword)
  rw [toNat_ofNat hle, toNat_ofNat hle'] at hlen
  exact List.append_inj htail hlen

end Word

namespace Reader

@[simp] theorem run_word_bytes (w : UInt16) (rest : Bytes) :
    word.run (Word.bytes w ++ rest) = .ok w rest := by
  rw [Word.bytes, List.cons_append, List.cons_append, run_word_cons, Word.ofBytes_bytes]
  rfl

/-- A word is missing where fewer than two bytes are left, and these are left alone. -/
theorem run_word_of_lt {bs : Bytes} (h : bs.length < 2) :
    word.run bs = .error .insufficientBytes bs := by
  match bs with
  | [] | [_] => rfl
  | _ :: _ :: bs =>
    simp only [List.length_cons] at h
    omega

/-- A sequence succeeds when its parts do, one from where the other ends. -/
theorem run_bind_eq_ok_iff {ε σ α β : Type} {x : EStateM ε σ α} {f : α → EStateM ε σ β} {s u : σ}
    {b : β} :
    (x >>= f).run s = .ok b u ↔ ∃ a t, x.run s = .ok a t ∧ (f a).run t = .ok b u := by
  rw [EStateM.run_bind]
  cases x.run s with
  | ok a t =>
    constructor
    · intro h
      exact ⟨a, t, rfl, h⟩
    · intro h
      obtain ⟨_, _, hx, h⟩ := h
      cases hx
      exact h
  | error e t => simp

/-- A sequence fails as its first part does, or as its second part does where the first ends. -/
theorem run_bind_eq_error_iff {ε σ α β : Type} {x : EStateM ε σ α} {f : α → EStateM ε σ β}
    {s u : σ} {e : ε} :
    (x >>= f).run s = .error e u ↔
      x.run s = .error e u ∨ ∃ a t, x.run s = .ok a t ∧ (f a).run t = .error e u := by
  rw [EStateM.run_bind]
  cases x.run s with
  | ok a t =>
    constructor
    · intro h
      exact .inr ⟨a, t, rfl, h⟩
    · intro h
      obtain hx | ⟨_, _, hx, h⟩ := h
      · cases hx
      · cases hx
        exact h
  | error e t => simp

theorem run_finish_eq_ok_iff {bs rest : Bytes} {a : Unit} :
    finish.run bs = .ok a rest ↔ bs = [] ∧ rest = [] := by
  rw [run_finish]
  cases bs with
  | nil => simp [eq_comm]
  | cons b bs => simp

theorem run_finish_eq_error_iff {bs rest : Bytes} {e : ReadFault} :
    finish.run bs = .error e rest ↔ bs ≠ [] ∧ e = .invalidData ∧ rest = bs := by
  rw [run_finish]
  cases bs with
  | nil => simp
  | cons b bs => simp [eq_comm]

theorem run_take_eq_ok_iff {n : Nat} {bs front rest : Bytes} :
    (take n).run bs = .ok front rest ↔ bs = front ++ rest ∧ front.length = n := by
  constructor
  · exact append_of_run_take
  · intro h
    obtain ⟨rfl, rfl⟩ := h
    exact run_take_append front rest

variable {α : Type} {r : Reader α}

theorem run_window_append {front : Bytes} (rest : Bytes) :
    (window front.length r).run (front ++ rest) = match r.run front with
      | .ok a _ => .ok a rest
      | .error e _ => .error e rest := by
  have htake : take front.length (front ++ rest) = .ok front rest := run_take_append front rest
  cases hr : r.run front with
  | ok a t =>
    simp only [EStateM.run] at hr
    simp only [window, EStateM.run, htake, hr]
  | error e t =>
    simp only [EStateM.run] at hr
    simp only [window, EStateM.run, htake, hr]

theorem run_window_of_lt {n : Nat} {bs : Bytes} (h : bs.length < n) :
    (window n r).run bs = .error .insufficientBytes bs := by
  have htake : take n bs = .error .insufficientBytes bs := run_take_of_lt h
  simp only [window, EStateM.run, htake]

/-- What is read in a window is read from its bytes alone. -/
theorem run_window_eq_ok_iff {n : Nat} {bs rest : Bytes} {a : α} :
    (window n r).run bs = .ok a rest ↔
      ∃ front t, bs = front ++ rest ∧ front.length = n ∧ r.run front = .ok a t := by
  constructor
  · intro h
    rcases length_lt_or_split n bs with hlt | ⟨front, tail, rfl, rfl⟩
    · rw [run_window_of_lt hlt] at h
      cases h
    · rw [run_window_append] at h
      cases hr : r.run front with
      | ok b t =>
        rw [hr] at h
        cases h
        exact ⟨front, t, rfl, rfl, hr⟩
      | error e t =>
        rw [hr] at h
        cases h
  · intro h
    obtain ⟨front, t, rfl, rfl, hr⟩ := h
    rw [run_window_append, hr]

/-- A window fails when the bytes end before it does, and otherwise as the reading of its bytes
fails; it has been passed by then. -/
theorem run_window_eq_error_iff {n : Nat} {bs rest : Bytes} {e : ReadFault} :
    (window n r).run bs = .error e rest ↔
      (bs.length < n ∧ e = .insufficientBytes ∧ rest = bs) ∨
      ∃ front t, bs = front ++ rest ∧ front.length = n ∧ r.run front = .error e t := by
  rcases length_lt_or_split n bs with hlt | ⟨front, tail, rfl, rfl⟩
  · rw [run_window_of_lt hlt]
    constructor
    · intro h
      cases h
      exact .inl ⟨hlt, rfl, rfl⟩
    · intro h
      obtain ⟨-, rfl, rfl⟩ | ⟨front, t, rfl, rfl, -⟩ := h
      · rfl
      · rw [List.length_append] at hlt
        omega
  · rw [run_window_append]
    constructor
    · intro h
      cases hr : r.run front with
      | ok a t =>
        rw [hr] at h
        cases h
      | error f t =>
        rw [hr] at h
        cases h
        exact .inr ⟨front, t, rfl, rfl, hr⟩
    · intro h
      obtain ⟨hlt, -, -⟩ | ⟨front', t, hsplit, hlen, hr⟩ := h
      · rw [List.length_append] at hlt
        omega
      · obtain ⟨rfl, rfl⟩ := List.append_inj hsplit hlen.symm
        rw [hr]

theorem on_eq_ok_iff {bs : Bytes} {a : α} : r.on bs = .ok a ↔ ∃ t, r.run bs = .ok a t := by
  unfold on
  cases r.run bs <;> simp

end Reader

namespace Layout

theorem denote_append_eq {first second : Layout} {xs ys : Bytes}
    (h : first.denote = (xs, none)) (h' : second.denote = (ys, none)) :
    (first ++ second).denote = (xs ++ ys, none) := by
  show (first.append second).denote = _
  rw [denote, h, h']

/-- Layouts without a fault, one after the other. -/
theorem denote_concat_map {α : Type} {f : α → Layout} {g : α → Bytes} {as : List α}
    (h : ∀ a ∈ as, (f a).denote = (g a, none)) :
    (concat (as.map f)).denote = (as.flatMap g, none) := by
  induction as with
  | nil => rfl
  | cons a as ih =>
    have htail := ih fun b hb => h b (List.mem_cons_of_mem a hb)
    exact denote_append_eq (h a List.mem_cons_self) htail

theorem denote_block_two {body : Layout} {xs : Bytes} (h : body.denote = (xs, none))
    (hle : xs.length ≤ 65535) : (block .two body).denote = (Word.framed xs, none) := by
  have hfield : Width.two.field xs.length = some (Word.bytes (UInt16.ofNat xs.length)) :=
    if_pos hle
  simp only [denote, h, hfield]
  rfl

/-- What a layout writes wherever there is room for it: these bytes behind what is there. -/
def Writes (l : Layout) (bs : Bytes) : Prop :=
  ∀ s : Sink, s.bytes.length + bs.length ≤ s.capacity →
    ∃ t, l.write.run s = .ok () t ∧ t.bytes = s.bytes ++ bs

theorem writes_of_denote {l : Layout} {bs : Bytes} (h : l.denote = (bs, none)) : l.Writes bs := by
  intro s hroom
  obtain ⟨t, -, hbytes, hrun⟩ := l.run_write_of_room s (by rw [h]; exact hroom)
  rw [h] at hbytes hrun
  exact ⟨t, hrun, hbytes⟩

end Layout

end HelloNegotiation
