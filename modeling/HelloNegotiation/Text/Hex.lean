import HelloNegotiation.Bytes

/-! # Hexadecimal text, in lower case -/
namespace HelloNegotiation.Text.Hex

/-- The digits of a number, without leading zeros. -/
def number (n : Nat) : String := String.ofList (Nat.toDigits 16 n)

/-- The two digits of a byte. -/
def byte (b : UInt8) : String :=
  String.ofList [Nat.digitChar (b.toNat / 16), Nat.digitChar (b.toNat % 16)]

/-- A byte string as a list in brackets. -/
def bytes (bs : Bytes) : String := "[" ++ String.intercalate ", " (bs.map byte) ++ "]"

end HelloNegotiation.Text.Hex
