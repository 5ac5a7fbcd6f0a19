/-! # The handshake messages that carry extensions -/
namespace HelloNegotiation

inductive HelloMessage
  | clientHello | serverHello | encryptedExtensions
  deriving DecidableEq, Repr

namespace HelloMessage

def code : HelloMessage → UInt8
  | clientHello => 1
  | serverHello => 2
  | encryptedExtensions => 8

def ofCode? : UInt8 → Option HelloMessage
  | 1 => some clientHello
  | 2 => some serverHello
  | 8 => some encryptedExtensions
  | _ => none

theorem ofCode?_code (m : HelloMessage) : ofCode? m.code = some m := by cases m <;> rfl

end HelloMessage

end HelloNegotiation
