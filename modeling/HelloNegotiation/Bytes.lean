/-! # Byte strings and 16-bit words in network order -/
namespace HelloNegotiation

abbrev Bytes := List UInt8

/-- The lengths of several things together. -/
def total {α : Type} (length : α → Nat) : List α → Nat
  | [] => 0
  | a :: as => length a + total length as

@[simp] theorem total_nil {α : Type} (length : α → Nat) : total length [] = 0 := rfl

@[simp] theorem total_cons {α : Type} (length : α → Nat) (a : α) (as : List α) :
    total length (a :: as) = length a + total length as := rfl

@[simp] theorem total_append {α : Type} (length : α → Nat) (as bs : List α) :
    total length (as ++ bs) = total length as + total length bs := by
  induction as with
  | nil => simp
  | cons a as ih => simp [ih, Nat.add_assoc]

theorem le_total_of_mem {α : Type} (length : α → Nat) {a : α} {as : List α} (h : a ∈ as) :
    length a ≤ total length as := by
  induction as with
  | nil => cases h
  | cons b as ih =>
    rw [total_cons]
    rcases List.mem_cons.mp h with rfl | h
    · exact Nat.le_add_right _ _
    · have htail := ih h
      omega

namespace Word

/-- The two bytes of a word, the high one first. -/
def bytes (w : UInt16) : Bytes := [UInt8.ofNat (w.toNat / 256), UInt8.ofNat (w.toNat % 256)]

def ofBytes (high low : UInt8) : UInt16 := UInt16.ofNat (high.toNat * 256 + low.toNat)

theorem toNat_ofBytes (high low : UInt8) : (ofBytes high low).toNat = high.toNat * 256 + low.toNat := by
  have := high.toNat_lt
  have := low.toNat_lt
  simp only [ofBytes, UInt16.toNat_ofNat']
  omega

theorem bytes_ofBytes (high low : UInt8) : bytes (ofBytes high low) = [high, low] := by
  have := high.toNat_lt
  have := low.toNat_lt
  simp only [bytes, toNat_ofBytes, List.cons.injEq, and_true]
  constructor <;> rw [← UInt8.toNat_inj, UInt8.toNat_ofNat'] <;> omega

theorem ofBytes_bytes (w : UInt16) :
    ofBytes (UInt8.ofNat (w.toNat / 256)) (UInt8.ofNat (w.toNat % 256)) = w := by
  have := w.toNat_lt
  rw [← UInt16.toNat_inj, toNat_ofBytes]
  simp only [UInt8.toNat_ofNat']
  omega

end Word

/-- How wide a length field is. -/
inductive Width
  | one | two
  deriving DecidableEq, Repr

namespace Width

def size : Width → Nat
  | one => 1
  | two => 2

/-- The largest length a field of this width can say. -/
def limit : Width → Nat
  | one => 255
  | two => 65535

/-- The field as it stands while the length is not known yet. -/
def blank : Width → Bytes
  | one => [0]
  | two => [0, 0]

/-- The field that says `n`, if `n` is within the limit. -/
def field (w : Width) (n : Nat) : Option Bytes :=
  if n ≤ w.limit then
    some <| match w with
      | one => [UInt8.ofNat n]
      | two => Word.bytes (UInt16.ofNat n)
  else none

@[simp] theorem length_blank (w : Width) : w.blank.length = w.size := by cases w <;> rfl

theorem length_field {w : Width} {n : Nat} {bs : Bytes} (h : w.field n = some bs) :
    bs.length = w.size := by
  unfold field at h
  split at h
  · cases w <;> cases h <;> rfl
  · cases h

theorem field_isSome_iff {w : Width} {n : Nat} : (w.field n).isSome ↔ n ≤ w.limit := by
  unfold field
  split <;> simp_all

end Width

end HelloNegotiation
