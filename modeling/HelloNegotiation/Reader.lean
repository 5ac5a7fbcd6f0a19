import HelloNegotiation.Bytes
import HelloNegotiation.Fault

/-!
# Reading from the front of a byte string

A reader takes the bytes still to come and leaves those it has not used, whether it succeeds or
not. A window cuts some bytes off first and reads them on their own. Items are read one after
another until nothing is left, which ends because each uses up at least one byte.
-/
namespace HelloNegotiation

abbrev Reader (α : Type) := EStateM ReadFault Bytes α

/-- A state of reading that holds bytes still to come. -/
class Input (σ : Type) where
  rest : σ → Bytes

instance : Input Bytes := ⟨id⟩

/-- A reader that uses up at least one byte whenever it succeeds. -/
structure Item (σ ε α : Type) [Input σ] where
  read : EStateM ε σ α
  shrinks : ∀ {s t : σ} {a : α}, read.run s = .ok a t →
    (Input.rest t).length < (Input.rest s).length

namespace Item

variable {σ ε α : Type} [Input σ]

/-- Reads items until no byte is left, after those already `found` (the latest first). -/
def collect (item : Item σ ε α) (found : List α) (s : σ) : EStateM.Result ε σ (List α) :=
  if (Input.rest s).isEmpty then .ok found.reverse s
  else match h : item.read.run s with
    | .ok a t =>
      have := item.shrinks h
      item.collect (a :: found) t
    | .error e t => .error e t
termination_by (Input.rest s).length

/-- Every item up to the end of the bytes; the first that cannot be read ends the reading. -/
def all (item : Item σ ε α) : EStateM ε σ (List α) := item.collect []

theorem collect_of_rest_nil (item : Item σ ε α) (found : List α) {s : σ} (h : Input.rest s = []) :
    item.collect found s = .ok found.reverse s := by
  rw [collect, if_pos (by simp [h])]

theorem collect_of_ok (item : Item σ ε α) (found : List α) {s t : σ} {a : α}
    (hs : Input.rest s ≠ []) (h : item.read.run s = .ok a t) :
    item.collect found s = item.collect (a :: found) t := by
  rw [collect, if_neg (by simpa using hs)]
  split <;> simp_all

theorem collect_of_error (item : Item σ ε α) (found : List α) {s t : σ} {e : ε}
    (hs : Input.rest s ≠ []) (h : item.read.run s = .error e t) :
    item.collect found s = .error e t := by
  rw [collect, if_neg (by simpa using hs)]
  split <;> simp_all

/-- What was found before does not change how the reading goes on. -/
theorem collect_eq (item : Item σ ε α) (found : List α) (s : σ) :
    item.collect found s = match item.collect [] s with
      | .ok as t => .ok (found.reverse ++ as) t
      | .error e t => .error e t := by
  induction hn : (Input.rest s).length using Nat.strongRecOn generalizing found s with
  | ind n ih =>
    by_cases hs : Input.rest s = []
    · simp [collect_of_rest_nil item _ hs]
    · cases h : item.read.run s with
      | ok a t =>
        have hlt := hn ▸ item.shrinks h
        rw [collect_of_ok item _ hs h, collect_of_ok item _ hs h, ih _ hlt (a :: found) t rfl,
          ih _ hlt [a] t rfl]
        cases item.collect [] t <;> simp
      | error e t => simp [collect_of_error item _ hs h]

theorem run_all_of_rest_nil (item : Item σ ε α) {s : σ} (h : Input.rest s = []) :
    item.all.run s = .ok [] s := collect_of_rest_nil item [] h

/-- One item, then the others. -/
theorem run_all_of_ok (item : Item σ ε α) {s t : σ} {a : α} (hs : Input.rest s ≠ [])
    (h : item.read.run s = .ok a t) :
    item.all.run s = match item.all.run t with
      | .ok as u => .ok (a :: as) u
      | .error e u => .error e u :=
  (collect_of_ok item [] hs h).trans (collect_eq item [a] t)

theorem run_all_of_error (item : Item σ ε α) {s t : σ} {e : ε} (hs : Input.rest s ≠ [])
    (h : item.read.run s = .error e t) : item.all.run s = .error e t :=
  collect_of_error item [] hs h

end Item

namespace Reader

def byte : Reader UInt8
  | b :: rest => .ok b rest
  | [] => .error .insufficientBytes []

/-- A word in network order; a lone byte is left where it is. -/
def word : Reader UInt16
  | high :: low :: rest => .ok (Word.ofBytes high low) rest
  | short => .error .insufficientBytes short

/-- The next `n` bytes and that they are so many, or none of them when fewer are left. -/
def exactly (n : Nat) : Reader { bs : Bytes // bs.length = n } := fun bs =>
  if h : (bs.take n).length = n then .ok ⟨bs.take n, h⟩ (bs.drop n)
  else .error .insufficientBytes bs

def take (n : Nat) : Reader Bytes := do
  let front ← exactly n
  return front.val

/-- All bytes still to come. -/
def remainder : Reader Bytes := fun bs => .ok bs []

def atEnd : Reader Bool := fun bs => .ok bs.isEmpty bs

/-- Nothing may be left. -/
def finish : Reader Unit := fun bs => if bs.isEmpty then .ok () bs else .error .invalidData bs

/-- Reads the next `n` bytes on their own with `r` and goes on behind them, whatever `r` made of
them. -/
def window {α : Type} (n : Nat) (r : Reader α) : Reader α := fun bs =>
  match (take n).run bs with
  | .ok inner rest => match r.run inner with
    | .ok a _ => .ok a rest
    | .error e _ => .error e rest
  | .error e bs => .error e bs

/-- The items that fill the next `n` bytes. -/
def list {α : Type} (n : Nat) (item : Item Bytes ReadFault α) : Reader (List α) :=
  window n item.all

/-- What a reader makes of bytes that stand on their own. -/
def on {α : Type} (r : Reader α) (bs : Bytes) : Except ReadFault α :=
  match r.run bs with
  | .ok a _ => .ok a
  | .error e _ => .error e

@[simp] theorem run_byte_nil : byte.run [] = .error .insufficientBytes [] := rfl

@[simp] theorem run_byte_cons (b : UInt8) (rest : Bytes) : byte.run (b :: rest) = .ok b rest := rfl

@[simp] theorem run_word_nil : word.run [] = .error .insufficientBytes [] := rfl

@[simp] theorem run_word_single (b : UInt8) : word.run [b] = .error .insufficientBytes [b] := rfl

@[simp] theorem run_word_cons (high low : UInt8) (rest : Bytes) :
    word.run (high :: low :: rest) = .ok (Word.ofBytes high low) rest := rfl

@[simp] theorem run_remainder (bs : Bytes) : remainder.run bs = .ok bs [] := rfl

@[simp] theorem run_atEnd (bs : Bytes) : atEnd.run bs = .ok bs.isEmpty bs := rfl

theorem run_finish (bs : Bytes) :
    finish.run bs = if bs.isEmpty then .ok () bs else .error .invalidData bs := rfl

theorem run_exactly_append {n : Nat} (front : { bs : Bytes // bs.length = n }) (rest : Bytes) :
    (exactly n).run (front.val ++ rest) = .ok front rest := by
  obtain ⟨front, rfl⟩ := front
  show exactly front.length (front ++ rest) = _
  simp [exactly]

theorem run_exactly_of_lt {n : Nat} {bs : Bytes} (h : bs.length < n) :
    (exactly n).run bs = .error .insufficientBytes bs := by
  have hshort : (bs.take n).length ≠ n := by
    rw [List.length_take]
    omega
  show exactly n bs = _
  rw [exactly, dif_neg hshort]

/-- The bytes taken and the bytes left are those there were. -/
theorem append_of_run_exactly {n : Nat} {bs rest : Bytes} {front : { bs : Bytes // bs.length = n }}
    (h : (exactly n).run bs = .ok front rest) : bs = front.val ++ rest := by
  replace h : exactly n bs = .ok front rest := h
  rw [exactly] at h
  split at h
  · cases h
    exact (List.take_append_drop n bs).symm
  · cases h

theorem run_take (n : Nat) (bs : Bytes) : (take n).run bs =
    match (exactly n).run bs with
    | .ok front rest => .ok front.val rest
    | .error e rest => .error e rest := by
  rw [take, EStateM.run_bind]
  cases (exactly n).run bs <;> rfl

theorem run_take_append (front rest : Bytes) :
    (take front.length).run (front ++ rest) = .ok front rest := by
  rw [run_take, run_exactly_append ⟨front, rfl⟩ rest]

theorem run_take_of_le {n : Nat} {bs : Bytes} (h : n ≤ bs.length) :
    (take n).run bs = .ok (bs.take n) (bs.drop n) := by
  have happend := run_exactly_append ⟨bs.take n, List.length_take_of_le h⟩ (bs.drop n)
  rw [List.take_append_drop] at happend
  rw [run_take, happend]

theorem run_take_of_lt {n : Nat} {bs : Bytes} (h : bs.length < n) :
    (take n).run bs = .error .insufficientBytes bs := by
  rw [run_take, run_exactly_of_lt h]

theorem append_of_run_take {n : Nat} {bs front rest : Bytes} (h : (take n).run bs = .ok front rest) :
    bs = front ++ rest ∧ front.length = n := by
  rw [run_take] at h
  cases ht : (exactly n).run bs with
  | ok front' rest' =>
    rw [ht] at h
    cases h
    exact ⟨append_of_run_exactly ht, front'.property⟩
  | error e rest' =>
    rw [ht] at h
    cases h

def byteItem : Item Bytes ReadFault UInt8 where
  read := byte
  shrinks {s _ _} h := by
    match s with
    | _ :: _ => cases h; exact Nat.lt_succ_self _
    | [] => cases h

def wordItem : Item Bytes ReadFault UInt16 where
  read := word
  shrinks {s _ _} h := by
    match s with
    | _ :: _ :: _ => cases h; exact Nat.lt_succ_of_lt (Nat.lt_succ_self _)
    | [_] => cases h
    | [] => cases h

end Reader

end HelloNegotiation
