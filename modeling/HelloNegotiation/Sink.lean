import HelloNegotiation.Bytes
import HelloNegotiation.Fault

/-! # A place to write that holds so many bytes and no more -/
namespace HelloNegotiation

structure Sink where
  capacity : Nat
  written : Array UInt8
  size_le : written.size ≤ capacity

namespace Sink

def empty (capacity : Nat) : Sink := ⟨capacity, #[], Nat.zero_le _⟩

def bytes (s : Sink) : Bytes := s.written.toList

/-- Whether there is room for `bs` behind what is written. -/
def Fits (s : Sink) (bs : Bytes) : Prop := s.written.size + bs.length ≤ s.capacity

instance (s : Sink) (bs : Bytes) : Decidable (s.Fits bs) := Nat.decLe _ _

/-- Writes `bs` behind what is there. -/
def append (s : Sink) (bs : Bytes) (h : s.Fits bs) : Sink :=
  ⟨s.capacity, s.written ++ bs, by
    rw [← Array.length_toList, Array.toList_appendList, List.length_append, Array.length_toList]
    exact h⟩

/-- The array with `bs` in place of its bytes from `start` on. -/
def patch (written : Array UInt8) (start : Nat) : Bytes → Array UInt8
  | [] => written
  | b :: bs => patch (written.setIfInBounds start b) (start + 1) bs

@[simp] theorem size_patch (written : Array UInt8) (start : Nat) (bs : Bytes) :
    (patch written start bs).size = written.size := by
  induction bs generalizing written start with
  | nil => rfl
  | cons b bs ih => simp [patch, ih]

/-- Puts `bs` in place of the bytes from `start` on. -/
def overwrite (s : Sink) (start : Nat) (bs : Bytes) : Sink :=
  ⟨s.capacity, patch s.written start bs, by simpa using s.size_le⟩

/-- The whole place: the bytes written and zeros where none were. -/
def padded (s : Sink) : Bytes := s.bytes ++ List.replicate (s.capacity - s.written.size) 0

@[simp] theorem length_bytes (s : Sink) : s.bytes.length = s.written.size := by simp [bytes]

@[simp] theorem bytes_append {s : Sink} {bs : Bytes} (h : s.Fits bs) :
    (s.append bs h).bytes = s.bytes ++ bs := by simp [append, bytes]

@[simp] theorem capacity_append {s : Sink} {bs : Bytes} (h : s.Fits bs) :
    (s.append bs h).capacity = s.capacity := rfl

theorem fits_iff {s : Sink} {bs : Bytes} :
    s.Fits bs ↔ s.bytes.length + bs.length ≤ s.capacity := by
  rw [length_bytes]
  rfl

/-- Overwriting in the middle leaves what stands before and behind. -/
theorem toList_patch (before old new after : Bytes) (h : old.length = new.length) :
    (patch (before ++ old ++ after).toArray before.length new).toList = before ++ new ++ after := by
  induction new generalizing before old with
  | nil => simp_all [patch]
  | cons b new ih =>
    match old with
    | [] => simp at h
    | o :: old =>
      have := ih (before ++ [b]) old (by simpa using h)
      simpa [patch] using this

theorem bytes_overwrite {s : Sink} {before old new after : Bytes}
    (h : s.bytes = before ++ old ++ after) (hl : old.length = new.length) :
    (s.overwrite before.length new).bytes = before ++ new ++ after := by
  have hw : s.written = (before ++ old ++ after).toArray := by
    rw [← h, bytes, Array.toArray_toList]
  rw [overwrite, bytes]
  dsimp only
  rw [hw, toList_patch before old new after hl]

end Sink

end HelloNegotiation
