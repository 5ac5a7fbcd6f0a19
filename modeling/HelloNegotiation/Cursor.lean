import HelloNegotiation.Reader

/-!
# Cursors

A cursor is a place in bytes that are all at hand. Places and lengths are machine words and are
added and subtracted as such; that a cursor stands within its data is part of the type. What is
read at a cursor is what a reader of bytes makes of the bytes still to come (`Cursor.lift`).
-/
namespace HelloNegotiation

structure Cursor where
  data : Bytes
  pos : UInt64
  fits : data.length < UInt64.size
  pos_le : pos.toNat ≤ data.length
  deriving DecidableEq

namespace Cursor

/-- At the front of bytes that stand on their own. -/
def ofBytes (bs : Bytes) (fits : bs.length < UInt64.size) : Cursor := ⟨bs, 0, fits, Nat.zero_le _⟩

def size (c : Cursor) : UInt64 := UInt64.ofNat c.data.length

def atEnd (c : Cursor) : Bool := c.pos == c.size

def remaining (c : Cursor) : UInt64 := c.size - c.pos

/-- The bytes still to come. -/
def rest (c : Cursor) : Bytes := c.data.drop c.pos.toNat

/-- The bytes behind the cursor. -/
def passed (c : Cursor) : Bytes := c.data.take c.pos.toNat

instance : Input Cursor := ⟨rest⟩

@[simp] theorem input_rest (c : Cursor) : Input.rest c = c.rest := rfl

theorem toNat_size (c : Cursor) : c.size.toNat = c.data.length := UInt64.toNat_ofNat_of_lt' c.fits

/-- The difference in `remaining` does not go below zero. -/
theorem usubOverflow_remaining (c : Cursor) :
    c.size.toBitVec.usubOverflow c.pos.toBitVec = false := by
  rw [BitVec.usubOverflow, UInt64.toNat_toBitVec, UInt64.toNat_toBitVec, toNat_size]
  exact decide_eq_false (Nat.not_lt.mpr c.pos_le)

theorem length_rest (c : Cursor) : c.rest.length = c.data.length - c.pos.toNat := List.length_drop

theorem toNat_remaining (c : Cursor) : c.remaining.toNat = c.rest.length := by
  have hsub : c.remaining.toNat = c.size.toNat - c.pos.toNat :=
    BitVec.toNat_sub_of_not_usubOverflow (Bool.eq_false_iff.mp c.usubOverflow_remaining)
  rw [hsub, toNat_size, length_rest]

theorem le_remaining_iff {c : Cursor} {n : UInt64} : n ≤ c.remaining ↔ n.toNat ≤ c.rest.length := by
  rw [UInt64.le_iff_toNat_le, toNat_remaining]

theorem remaining_lt_iff {c : Cursor} {n : UInt64} : c.remaining < n ↔ c.rest.length < n.toNat := by
  rw [UInt64.lt_iff_toNat_lt, toNat_remaining]

theorem passed_append_rest (c : Cursor) : c.passed ++ c.rest = c.data := List.take_append_drop _ _

theorem atEnd_iff (c : Cursor) : c.atEnd ↔ c.rest = [] := by
  rw [atEnd, beq_iff_eq, ← UInt64.toNat_inj, toNat_size, rest, List.drop_eq_nil_iff]
  have := c.pos_le
  omega

/-- The sum in `skip` does not wrap around. -/
theorem uaddOverflow_skip {c : Cursor} {n : UInt64} (h : n ≤ c.remaining) :
    c.pos.toBitVec.uaddOverflow n.toBitVec = false := by
  have hle := le_remaining_iff.mp h
  have hpos := c.pos_le
  have hfits : c.data.length < 2 ^ 64 := c.fits
  rw [length_rest] at hle
  rw [BitVec.uaddOverflow, UInt64.toNat_toBitVec, UInt64.toNat_toBitVec]
  apply decide_eq_false
  omega

theorem toNat_pos_add {c : Cursor} {n : UInt64} (h : n ≤ c.remaining) :
    (c.pos + n).toNat = c.pos.toNat + n.toNat :=
  BitVec.toNat_add_of_not_uaddOverflow (Bool.eq_false_iff.mp (uaddOverflow_skip h))

/-- The cursor `n` bytes further on. -/
def skip (c : Cursor) (n : UInt64) (h : n ≤ c.remaining) : Cursor where
  data := c.data
  pos := c.pos + n
  fits := c.fits
  pos_le := by
    have hle := le_remaining_iff.mp h
    have hpos := c.pos_le
    rw [length_rest] at hle
    rw [toNat_pos_add h]
    omega

theorem rest_skip {c : Cursor} {n : UInt64} (h : n ≤ c.remaining) :
    (c.skip n h).rest = c.rest.drop n.toNat := by
  simp only [rest, skip, toNat_pos_add h, List.drop_drop]

/-- The `n` bytes from the cursor on. -/
def window (c : Cursor) (n : UInt64) : Bytes := c.data.extract c.pos.toNat (c.pos + n).toNat

theorem length_window_le (c : Cursor) (n : UInt64) : (c.window n).length ≤ c.data.length := by
  simp only [window, List.extract_eq_take_drop, List.length_take, List.length_drop]
  omega

theorem window_eq_take {c : Cursor} {n : UInt64} (h : n ≤ c.remaining) :
    c.window n = c.rest.take n.toNat := by
  rw [window, List.extract_eq_take_drop, toNat_pos_add h, Nat.add_sub_cancel_left, rest]

theorem length_window {c : Cursor} {n : UInt64} (h : n ≤ c.remaining) :
    (c.window n).length = n.toNat := by
  rw [window_eq_take h, List.length_take_of_le (le_remaining_iff.mp h)]

/-- What comes next is the window, and then what comes next behind it. -/
theorem rest_eq_window_append {c : Cursor} {n : UInt64} (h : n ≤ c.remaining) :
    c.rest = c.window n ++ (c.skip n h).rest := by
  rw [window_eq_take h, rest_skip, List.take_append_drop]

/-- A cursor of its own over the next `n` bytes. -/
def inner (c : Cursor) (n : UInt64) : Cursor :=
  ofBytes (c.window n) (Nat.lt_of_le_of_lt (c.length_window_le n) c.fits)

@[simp] theorem rest_inner (c : Cursor) (n : UInt64) : (c.inner n).rest = c.window n := rfl

/-- Splits off the next `n` bytes, if there are as many, and goes on behind them. -/
def slice (n : UInt64) : EStateM ReadFault Cursor Cursor := fun c =>
  if h : c.remaining < n then .error .insufficientBytes c
  else .ok (c.inner n) (c.skip n (UInt64.not_lt.mp h))

theorem run_slice_of_lt {c : Cursor} {n : UInt64} (h : c.remaining < n) :
    (slice n).run c = .error .insufficientBytes c := by
  show slice n c = _
  rw [slice, dif_pos h]

/-- So many bytes on, the place would have come around to the front. -/
example : (do let _ ← slice 1; slice 0xffffffffffffffff).run (ofBytes [7, 8] (by decide)) =
    .error .insufficientBytes ⟨[7, 8], 1, by decide, by decide⟩ := rfl

theorem run_slice_of_le {c : Cursor} {n : UInt64} (h : n ≤ c.remaining) :
    (slice n).run c = .ok (c.inner n) (c.skip n h) := by
  show slice n c = _
  rw [slice, dif_neg (UInt64.not_lt.mpr h)]

def take (n : UInt64) : EStateM ReadFault Cursor Bytes := do
  let inner ← slice n
  return inner.data

theorem run_take_of_lt {c : Cursor} {n : UInt64} (h : c.remaining < n) :
    (take n).run c = .error .insufficientBytes c := by
  rw [take, EStateM.run_bind, run_slice_of_lt h]

theorem run_take_of_le {c : Cursor} {n : UInt64} (h : n ≤ c.remaining) :
    (take n).run c = .ok (c.window n) (c.skip n h) := by
  rw [take, EStateM.run_bind, run_slice_of_le h]
  rfl

/-- Too few bytes are not read, whatever would be made of them. -/
theorem run_take_pure_of_lt {α : Type} (g : Bytes → α) {c : Cursor} {n : UInt64}
    (h : c.remaining < n) :
    (take n >>= fun bs => pure (g bs)).run c = .error .insufficientBytes c := by
  rw [EStateM.run_bind, run_take_of_lt h]

theorem run_take_pure_of_le {α : Type} (g : Bytes → α) {c : Cursor} {n : UInt64}
    (h : n ≤ c.remaining) :
    (take n >>= fun bs => pure (g bs)).run c = .ok (g (c.window n)) (c.skip n h) := by
  rw [EStateM.run_bind, run_take_of_le h]
  rfl

def byte : EStateM ReadFault Cursor UInt8 := do
  let bs ← take 1
  return bs.getD 0 0

def word : EStateM ReadFault Cursor UInt16 := do
  let bs ← take 2
  return Word.ofBytes (bs.getD 0 0) (bs.getD 1 0)

/-- A result at which the cursor is left at `c`. -/
def resultAt {α : Type} (c : Cursor) : Except ReadFault α → EStateM.Result ReadFault Cursor α
  | .ok a => .ok a c
  | .error e => .error e c

/-- The items that fill the next `n` bytes, read by a cursor of their own. This cursor goes on
behind those bytes, whatever the items are. -/
def list {α : Type} (n : UInt64) (item : Item Cursor ReadFault α) :
    EStateM ReadFault Cursor (List α) := fun c =>
  match (slice n).run c with
  | .error e d => .error e d
  | .ok inner d => match item.all.run inner with
    | .ok as _ => .ok as d
    | .error e _ => .error e d

/-- The cursor in front of the last bytes, as many as `rest` has. -/
def inFrontOf (c : Cursor) (rest : Bytes) : Cursor where
  data := c.data
  pos := UInt64.ofNat (c.data.length - rest.length)
  fits := c.fits
  pos_le := by
    rw [UInt64.toNat_ofNat_of_lt' (Nat.lt_of_le_of_lt (Nat.sub_le _ _) c.fits)]
    exact Nat.sub_le _ _

theorem toNat_pos_inFrontOf (c : Cursor) (bs : Bytes) :
    (c.inFrontOf bs).pos.toNat = c.data.length - bs.length :=
  UInt64.toNat_ofNat_of_lt' (Nat.lt_of_le_of_lt (Nat.sub_le _ _) c.fits)

/-- Reads at the cursor what a reader of bytes makes of the bytes still to come. -/
def lift {α : Type} (r : Reader α) : EStateM ReadFault Cursor α := fun c =>
  match r.run c.rest with
  | .ok a rest => .ok a (c.inFrontOf rest)
  | .error e rest => .error e (c.inFrontOf rest)

theorem run_lift {α : Type} (r : Reader α) (c : Cursor) : (lift r).run c =
    match r.run c.rest with
    | .ok a rest => .ok a (c.inFrontOf rest)
    | .error e rest => .error e (c.inFrontOf rest) := rfl

theorem run_lift_eq_ok {α : Type} {r : Reader α} {c d : Cursor} {a : α}
    (h : (lift r).run c = .ok a d) : ∃ rest, r.run c.rest = .ok a rest ∧ d = c.inFrontOf rest := by
  rw [run_lift] at h
  cases hr : r.run c.rest with
  | ok b rest =>
    rw [hr] at h
    cases h
    exact ⟨rest, rfl, rfl⟩
  | error e rest =>
    rw [hr] at h
    cases h

/-- An item of bytes is one at a cursor. -/
def liftItem {α : Type} (item : Item Bytes ReadFault α) : Item Cursor ReadFault α where
  read := lift item.read
  shrinks {c _ _} h := by
    obtain ⟨rest, hread, rfl⟩ := run_lift_eq_ok h
    have hlt : rest.length < c.rest.length := item.shrinks hread
    have hrest := length_rest (c.inFrontOf rest)
    have hdata : (c.inFrontOf rest).data.length = c.data.length := rfl
    rw [toNat_pos_inFrontOf] at hrest
    rw [input_rest, input_rest]
    omega

end Cursor

end HelloNegotiation
