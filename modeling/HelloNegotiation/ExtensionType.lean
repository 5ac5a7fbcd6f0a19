import HelloNegotiation.Layout

/-!
# Extension types

A type is known by its number; sixteen of them have a name.
-/
namespace HelloNegotiation

structure ExtensionType where
  id : UInt16
  name? : Option String
  deriving Repr

namespace ExtensionType

/-- Types are the same when their numbers are. -/
instance : BEq ExtensionType := ⟨fun s t => s.id == t.id⟩

def unnamed (id : UInt16) : ExtensionType := ⟨id, none⟩

def serverName : ExtensionType := ⟨0x0000, some "server_name"⟩
def maxFragmentLength : ExtensionType := ⟨0x0001, some "max_fragment_length"⟩
def clientCertificateUrl : ExtensionType := ⟨0x0002, some "client_certificate_url"⟩
def trustedCaKeys : ExtensionType := ⟨0x0003, some "trusted_ca_keys"⟩
def truncatedHmac : ExtensionType := ⟨0x0004, some "truncated_hmac"⟩
def statusRequest : ExtensionType := ⟨0x0005, some "status_request"⟩
def userMapping : ExtensionType := ⟨0x0006, some "user_mapping"⟩
def certType : ExtensionType := ⟨0x0009, some "cert_type"⟩
def ellipticCurves : ExtensionType := ⟨0x000A, some "elliptic_curves"⟩
def ecPointFormats : ExtensionType := ⟨0x000B, some "ec_point_formats"⟩
def srp : ExtensionType := ⟨0x000C, some "srp"⟩
def signatureAlgorithms : ExtensionType := ⟨0x000D, some "signature_algorithms"⟩
def alpn : ExtensionType := ⟨0x0010, some "alpn"⟩
def extendedMasterSecret : ExtensionType := ⟨0x0017, some "extended_master_secret"⟩
def npn : ExtensionType := ⟨0x3374, some "next_protocol_negotiation"⟩
def renegotiationInfo : ExtensionType := ⟨0xFF01, some "renegotiation_info"⟩

/-- The types that have a name, by rising number. -/
def named : List ExtensionType :=
  [serverName, maxFragmentLength, clientCertificateUrl, trustedCaKeys, truncatedHmac,
    statusRequest, userMapping, certType, ellipticCurves, ecPointFormats, srp,
    signatureAlgorithms, alpn, extendedMasterSecret, npn, renegotiationInfo]

/-- The type with this number, with its name if it has one. -/
def ofId (id : UInt16) : ExtensionType := (named.find? (·.id == id)).getD (unnamed id)

def isKnown (t : ExtensionType) : Bool := t.name?.isSome

/-- The name of the type, or one made from its number. -/
def name (t : ExtensionType) : String := t.name?.getD ("type_" ++ Nat.repr t.id.toNat)

def layout (t : ExtensionType) : Layout := .word t.id

@[simp] theorem beq_iff (s t : ExtensionType) : (s == t) = true ↔ s.id = t.id :=
  beq_iff_eq (a := s.id) (b := t.id)

theorem id_ofId (id : UInt16) : (ofId id).id = id := by
  unfold ofId
  cases h : named.find? (·.id == id) with
  | none => rfl
  | some t => exact beq_iff_eq.mp (List.find?_some h :)

theorem ofId_of_mem {t : ExtensionType} (h : t ∈ named) : ofId t.id = t := by
  simp only [named, List.mem_cons, List.not_mem_nil, or_false] at h
  rcases h with h | h | h | h | h | h | h | h | h | h | h | h | h | h | h | h <;> subst h <;> rfl

end ExtensionType

end HelloNegotiation
