import HelloNegotiation.Alert
import HelloNegotiation.Negotiation.History
import HelloNegotiation.Negotiation.Script
import HelloNegotiation.Proofs.CatalogueReachability
import HelloNegotiation.Proofs.EntryGrammar
import HelloNegotiation.Proofs.EntryReading
import HelloNegotiation.Proofs.BlockReading
import HelloNegotiation.Proofs.BlockWriting
import HelloNegotiation.Proofs.BlockRoundTrip
import HelloNegotiation.Proofs.BlockNormalization
import HelloNegotiation.Proofs.ExchangeSteps
import HelloNegotiation.Proofs.HandshakeRuns
import HelloNegotiation.Proofs.HandshakeAgreement
import HelloNegotiation.Proofs.AlpnForms
import HelloNegotiation.Proofs.UnaskedAnswers
import HelloNegotiation.Proofs.CallsOfSteps
import HelloNegotiation.Proofs.DirectoryOperations
import HelloNegotiation.Proofs.BindingHistory
import HelloNegotiation.Proofs.LocalSteps
import HelloNegotiation.Proofs.CatalogueGrowth
import HelloNegotiation.Proofs.Noninterference
import HelloNegotiation.Proofs.BlockEncoding
import HelloNegotiation.Proofs.KeptLength
import HelloNegotiation.Proofs.ServerResponses
import HelloNegotiation.Proofs.ServerAnswers
import HelloNegotiation.Proofs.AdvertisedNames
import HelloNegotiation.Proofs.Utf8Decoding
import HelloNegotiation.Proofs.Utf8Names
import HelloNegotiation.Proofs.Latin1Names
import HelloNegotiation.Proofs.NegotiationAccess
import HelloNegotiation.Proofs.CursorSteps
