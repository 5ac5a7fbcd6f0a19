import HelloNegotiation.Bytes

/-! # ISO-8859-1: every byte is the character with that code point -/
namespace HelloNegotiation.Text.Latin1

def decode (bs : Bytes) : String := String.ofList (bs.map fun b => Char.ofNat b.toNat)

/-- Characters above U+00FF have no byte. -/
def encodeChar? (c : Char) : Option UInt8 :=
  if c.toNat < 256 then some (UInt8.ofNat c.toNat) else none

def encode? (s : String) : Option Bytes := s.toList.mapM encodeChar?

theorem toNat_ofByte (b : UInt8) : (Char.ofNat b.toNat).toNat = b.toNat := by
  have valid : b.toNat.isValidChar := Or.inl (Nat.lt_trans b.toNat_lt (by decide))
  rw [Char.ofNat, dif_pos valid]
  rfl

theorem encodeChar?_ofByte (b : UInt8) : encodeChar? (Char.ofNat b.toNat) = some b := by
  rw [encodeChar?, toNat_ofByte, if_pos b.toNat_lt, UInt8.ofNat_toNat]

theorem encode?_decode (bs : Bytes) : encode? (decode bs) = some bs := by
  rw [encode?, decode, String.toList_ofList]
  induction bs with
  | nil => rfl
  | cons b bs ih => simp [encodeChar?_ofByte, ih]

end HelloNegotiation.Text.Latin1
