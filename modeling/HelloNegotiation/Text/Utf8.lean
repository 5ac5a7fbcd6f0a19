import HelloNegotiation.Bytes

/-!
# UTF-8

A byte string falls into pieces from the front: a piece is one character, or the longest run of
bytes that begins a character and cannot go on (a byte that begins none is a run of its own). The
strict decoding wants characters only; the lossy one puts U+FFFD for every other piece.
-/
namespace HelloNegotiation.Text.Utf8

def encode (s : String) : Bytes := s.toList.flatMap String.utf8EncodeChar

/-- The ranges for the bytes after this first one, or nothing if no character begins with it. -/
def tails (lead : UInt8) : Option (List (UInt8 × UInt8)) :=
  if lead < 0x80 then some []
  else if lead < 0xC2 then none
  else if lead < 0xE0 then some [(0x80, 0xBF)]
  else if lead = 0xE0 then some [(0xA0, 0xBF), (0x80, 0xBF)]
  else if lead = 0xED then some [(0x80, 0x9F), (0x80, 0xBF)]
  else if lead < 0xF0 then some [(0x80, 0xBF), (0x80, 0xBF)]
  else if lead = 0xF0 then some [(0x90, 0xBF), (0x80, 0xBF), (0x80, 0xBF)]
  else if lead < 0xF4 then some [(0x80, 0xBF), (0x80, 0xBF), (0x80, 0xBF)]
  else if lead = 0xF4 then some [(0x80, 0x8F), (0x80, 0xBF), (0x80, 0xBF)]
  else none

/-- The longest run of bytes that lie in the ranges, one in each, and what follows it. -/
def fit : List (UInt8 × UInt8) → Bytes → Bytes × Bytes
  | (low, high) :: ranges, b :: rest =>
    if low ≤ b ∧ b ≤ high then (b :: (fit ranges rest).1, (fit ranges rest).2) else ([], b :: rest)
  | _, rest => ([], rest)

/-- The bits of the code point that the first byte holds. -/
def leadBits (lead : UInt8) : Nat :=
  if lead < 0x80 then lead.toNat
  else if lead < 0xE0 then lead.toNat % 32
  else if lead < 0xF0 then lead.toNat % 16
  else lead.toNat % 8

/-- Six more bits come from each byte after the first. -/
def codePoint (lead : UInt8) (more : Bytes) : Nat :=
  more.foldl (fun n b => n * 64 + b.toNat % 64) (leadBits lead)

/-- The first piece of `lead :: rest`, a character or none, and what follows it. -/
def piece (lead : UInt8) (rest : Bytes) : Option Char × Bytes :=
  match tails lead with
  | none => (none, rest)
  | some ranges =>
    let (more, left) := fit ranges rest
    (if more.length = ranges.length then some (Char.ofNat (codePoint lead more)) else none, left)

theorem append_fit (ranges : List (UInt8 × UInt8)) (bs : Bytes) :
    (fit ranges bs).1 ++ (fit ranges bs).2 = bs := by
  fun_induction fit ranges bs with
  | case1 => simp_all
  | case2 => rfl
  | case3 => rfl

theorem length_piece_le (lead : UInt8) (rest : Bytes) : (piece lead rest).2.length ≤ rest.length := by
  unfold piece
  split
  · exact Nat.le_refl _
  · next ranges _ =>
    have := congrArg List.length (append_fit ranges rest)
    simp only [List.length_append] at this
    dsimp only
    omega

def pieces : Bytes → List (Option Char)
  | [] => []
  | lead :: rest =>
    have := length_piece_le lead rest
    (piece lead rest).1 :: pieces (piece lead rest).2
termination_by bs => bs.length
decreasing_by simp only [List.length_cons]; omega

def lossy (bs : Bytes) : String :=
  String.ofList ((pieces bs).map fun c => c.getD (Char.ofNat 0xFFFD))

/-- The text whose encoding the bytes are, if there is one. -/
def decode? (bs : Bytes) : Option String :=
  if (pieces bs).all Option.isSome then some (lossy bs) else none

/-- The decodings agree where both give a text. -/
theorem lossy_of_decode? {bs : Bytes} {s : String} (h : decode? bs = some s) : lossy bs = s := by
  unfold decode? at h
  split at h
  · exact Option.some.inj h
  · cases h

end HelloNegotiation.Text.Utf8
