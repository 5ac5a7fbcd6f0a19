import HelloNegotiation.ExtensionType
import HelloNegotiation.ProtocolName

/-!
# Next protocol negotiation

The server advertises distinct names, which stand one after another on the wire, and the client
selects. A client says that it would like to by an empty advertisement.
-/
namespace HelloNegotiation

structure Npn where
  names : List ProtocolName
  nodup : names.Nodup
  deriving DecidableEq

namespace Npn

def empty : Npn := ⟨[], .nil⟩

/-- Adds a name at the end unless it is there already; says whether it was added. -/
def insert (n : Npn) (p : ProtocolName) : Bool × Npn :=
  if h : p ∈ n.names then (false, n)
  else (true, ⟨n.names ++ [p], by
    simp only [List.nodup_append, n.nodup, List.nodup_cons, List.not_mem_nil, not_false_eq_true,
      List.nodup_nil, and_self, List.mem_cons, or_false, forall_eq, true_and]
    exact fun q hq hqp => h (hqp ▸ hq)⟩)

/-- The names, each where it stands first. -/
def ofNames (ps : List ProtocolName) : Npn := ps.foldl (fun n p => (n.insert p).2) empty

/-- The advertisement of ISO-8859-1 names. -/
def ofTexts (texts : List String) : Except Fault Npn :=
  return ofNames (← texts.mapM ProtocolName.ofLatin1)

def texts (n : Npn) : List String := n.names.map (·.latin1)

def read : Reader Npn := do
  let names ← ProtocolName.item.all
  return ofNames names

def layout (n : Npn) : Layout := .concat (n.names.map ProtocolName.layout)

/-- The bytes the negotiation takes up on the wire, without the header of an extension. -/
def wireLength (n : Npn) : Nat := total ProtocolName.wireLength n.names

def display (n : Npn) : String :=
  let id := ExtensionType.npn.id.toNat
  "Next Protocol Negotiation Extension [0x" ++ Text.Hex.number id ++ "/" ++ Nat.repr id
    ++ "], protocols: " ++ Text.Quoted.quoteAll n.texts

theorem insert_of_mem {n : Npn} {p : ProtocolName} (h : p ∈ n.names) : n.insert p = (false, n) :=
  dif_pos h

theorem names_insert_of_not_mem {n : Npn} {p : ProtocolName} (h : p ∉ n.names) :
    (n.insert p).1 = true ∧ (n.insert p).2.names = n.names ++ [p] := by
  rw [insert, dif_neg h]
  exact ⟨rfl, rfl⟩

end Npn

end HelloNegotiation
