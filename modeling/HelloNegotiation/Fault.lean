import HelloNegotiation.Alert.Description
import HelloNegotiation.Role

/-! # What can go wrong, the message each fault gives and the alert it calls for -/
namespace HelloNegotiation

/-- Why bytes could not be read. Lack of space is for readers that store what they read. -/
inductive ReadFault
  | insufficientBytes | insufficientSpace | invalidData
  deriving DecidableEq, Repr

def ReadFault.label : ReadFault → String
  | insufficientBytes => "InsufficientBytes"
  | insufficientSpace => "InsufficientSpace"
  | invalidData => "InvalidData"

inductive Fault
  | read (why : ReadFault)
  | decode
  | encode
  | insufficientSpace
  | extensionsLength
  | protocolName
  | negotiation (mechanism : Mechanism)
  | abort (level : Alert.Level) (description : Alert.Description)
  deriving DecidableEq, Repr

namespace Fault

def message : Fault → String
  | read why => "error parsing extensions: " ++ why.label
  | decode => "error decoding extension data"
  | encode => "error encoding extension data"
  | insufficientSpace => "insufficient space in output buffer"
  | extensionsLength => "invalid extensions length"
  | protocolName => "invalid protocol name"
  | negotiation mechanism => mechanism.label ++ " negotiation failed"
  | abort level description => "handshake aborted: " ++ level.label ++ " " ++ description.name

/-- The description of the alert that reports the fault to the peer. -/
def alert : Fault → Alert.Description
  | read _ | decode | extensionsLength => .decodeError
  | protocolName => .illegalParameter
  | negotiation .alpn => .noApplicationProtocol
  | negotiation .npn => .handshakeFailure
  | encode | insufficientSpace => .internalError
  | abort _ description => description

end Fault

end HelloNegotiation
