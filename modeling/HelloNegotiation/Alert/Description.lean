/-! # Alert levels, descriptions and the failures they stand for -/
namespace HelloNegotiation.Alert

inductive Level
  | warning | fatal
  deriving DecidableEq, Repr

namespace Level

def code : Level → UInt8
  | warning => 1
  | fatal => 2

def ofCode? : UInt8 → Option Level
  | 1 => some warning
  | 2 => some fatal
  | _ => none

/-- The level as it is written inside a message. -/
def label : Level → String
  | warning => "Warning"
  | fatal => "Fatal"

theorem ofCode?_code (l : Level) : ofCode? l.code = some l := by cases l <;> rfl

end Level

/-- Whether a failure lies in the handshake itself. -/
inductive Category
  | handshakeFailure | genericFailure
  deriving DecidableEq, Repr

inductive Description
  | closeNotify | unexpectedMessage | badRecordMac | decryptionFailed | recordOverflow
  | decompressionFailure | handshakeFailure | noCertificate | badCertificate
  | unsupportedCertificate | certificateRevoked | certificateExpired | certificateUnknown
  | illegalParameter | unknownCa | accessDenied | decodeError | decryptError
  | exportRestriction | protocolVersion | insufficientSecurity | internalError
  | inappropriateFallback | userCanceled | noRenegotiation | missingExtension
  | unsupportedExtension | certificateUnobtainable | unrecognizedName
  | badCertificateStatusResponse | badCertificateHashValue | unknownPskIdentity
  | certificateRequired | noApplicationProtocol
  deriving DecidableEq, Repr

namespace Description

/-- Every description, in the order of the codes. -/
def all : List Description :=
  [closeNotify, unexpectedMessage, badRecordMac, decryptionFailed, recordOverflow,
    decompressionFailure, handshakeFailure, noCertificate, badCertificate,
    unsupportedCertificate, certificateRevoked, certificateExpired, certificateUnknown,
    illegalParameter, unknownCa, accessDenied, decodeError, decryptError,
    exportRestriction, protocolVersion, insufficientSecurity, internalError,
    inappropriateFallback, userCanceled, noRenegotiation, missingExtension,
    unsupportedExtension, certificateUnobtainable, unrecognizedName,
    badCertificateStatusResponse, badCertificateHashValue, unknownPskIdentity,
    certificateRequired, noApplicationProtocol]

def code : Description → UInt8
  | closeNotify => 0
  | unexpectedMessage => 10
  | badRecordMac => 20
  | decryptionFailed => 21
  | recordOverflow => 22
  | decompressionFailure => 30
  | handshakeFailure => 40
  | noCertificate => 41
  | badCertificate => 42
  | unsupportedCertificate => 43
  | certificateRevoked => 44
  | certificateExpired => 45
  | certificateUnknown => 46
  | illegalParameter => 47
  | unknownCa => 48
  | accessDenied => 49
  | decodeError => 50
  | decryptError => 51
  | exportRestriction => 60
  | protocolVersion => 70
  | insufficientSecurity => 71
  | internalError => 80
  | inappropriateFallback => 86
  | userCanceled => 90
  | noRenegotiation => 100
  | missingExtension => 109
  | unsupportedExtension => 110
  | certificateUnobtainable => 111
  | unrecognizedName => 112
  | badCertificateStatusResponse => 113
  | badCertificateHashValue => 114
  | unknownPskIdentity => 115
  | certificateRequired => 116
  | noApplicationProtocol => 120

def ofCode? (n : UInt8) : Option Description := all.find? (·.code == n)

def name : Description → String
  | closeNotify => "close_notify"
  | unexpectedMessage => "unexpected_message"
  | badRecordMac => "bad_record_mac"
  | decryptionFailed => "decryption_failed"
  | recordOverflow => "record_overflow"
  | decompressionFailure => "decompression_failure"
  | handshakeFailure => "handshake_failure"
  | noCertificate => "no_certificate"
  | badCertificate => "bad_certificate"
  | unsupportedCertificate => "unsupported_certificate"
  | certificateRevoked => "certificate_revoked"
  | certificateExpired => "certificate_expired"
  | certificateUnknown => "certificate_unknown"
  | illegalParameter => "illegal_parameter"
  | unknownCa => "unknown_ca"
  | accessDenied => "access_denied"
  | decodeError => "decode_error"
  | decryptError => "decrypt_error"
  | exportRestriction => "export_restriction"
  | protocolVersion => "protocol_version"
  | insufficientSecurity => "insufficient_security"
  | internalError => "internal_error"
  | inappropriateFallback => "inappropriate_fallback"
  | userCanceled => "user_canceled"
  | noRenegotiation => "no_renegotiation"
  | missingExtension => "missing_extension"
  | unsupportedExtension => "unsupported_extension"
  | certificateUnobtainable => "certificate_unobtainable"
  | unrecognizedName => "unrecognized_name"
  | badCertificateStatusResponse => "bad_certificate_status_response"
  | badCertificateHashValue => "bad_certificate_hash_value"
  | unknownPskIdentity => "unknown_psk_identity"
  | certificateRequired => "certificate_required"
  | noApplicationProtocol => "no_application_protocol"

def category : Description → Category
  | handshakeFailure | noCertificate | badCertificate | unsupportedCertificate
  | certificateRevoked | certificateExpired | certificateUnknown | unknownCa | accessDenied
  | decryptError | exportRestriction | insufficientSecurity | unsupportedExtension
  | certificateUnobtainable | unrecognizedName | badCertificateStatusResponse
  | badCertificateHashValue | unknownPskIdentity | certificateRequired => .handshakeFailure
  | _ => .genericFailure

theorem mem_all (d : Description) : d ∈ all := by cases d <;> decide

theorem ofCode?_code (d : Description) : ofCode? d.code = some d := by cases d <;> decide

theorem code_of_ofCode? {n : UInt8} {d : Description} (h : ofCode? n = some d) : d.code = n := by
  simpa using List.find?_some h

end Description

end HelloNegotiation.Alert
