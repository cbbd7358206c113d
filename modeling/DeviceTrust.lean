import DeviceTrust.Base64
import DeviceTrust.Bytes
import DeviceTrust.Calendar
import DeviceTrust.Cipher.Aes
import DeviceTrust.Cipher.Chaining
import DeviceTrust.CommandLine.Arguments
import DeviceTrust.CommandLine.Command
import DeviceTrust.CommandLine.Run
import DeviceTrust.Der.Element
import DeviceTrust.Der.Strict
import DeviceTrust.Digest.Padding
import DeviceTrust.Digest.Sha1
import DeviceTrust.Digest.Sha2
import DeviceTrust.Double
import DeviceTrust.Duration
import DeviceTrust.Failure
import DeviceTrust.Json.Decode
import DeviceTrust.Json.Printer
import DeviceTrust.Json.Reader
import DeviceTrust.Json.Spelling
import DeviceTrust.Json.Value
import DeviceTrust.KeySet.Basic
import DeviceTrust.KeySet.Cache
import DeviceTrust.KeySet.CacheConfig
import DeviceTrust.KeySet.Error
import DeviceTrust.KeySet.Jwk
import DeviceTrust.KeySet.Key
import DeviceTrust.KeySet.Schedule
import DeviceTrust.KeySet.Source
import DeviceTrust.KeySet.Timeline
import DeviceTrust.Main
import DeviceTrust.Named
import DeviceTrust.Pem
import DeviceTrust.Random
import DeviceTrust.Rsa.Key
import DeviceTrust.Rsa.KeyFile
import DeviceTrust.Rsa.Signature
import DeviceTrust.Sealing.Codec
import DeviceTrust.Sealing.Error
import DeviceTrust.Sealing.Framing
import DeviceTrust.Sealing.Key
import DeviceTrust.Services
import DeviceTrust.Settings.Document
import DeviceTrust.Settings.Error
import DeviceTrust.Settings.Layer
import DeviceTrust.Settings.Resolved
import DeviceTrust.Settings.Secret
import DeviceTrust.Settings.Source
import DeviceTrust.Settings.Variables
import DeviceTrust.Storage
import DeviceTrust.Text.Blank
import DeviceTrust.Text.Count
import DeviceTrust.Text.Quoted
import DeviceTrust.Text.Shown
import DeviceTrust.Text.Utf8
import DeviceTrust.Token.Authority
import DeviceTrust.Token.Claims
import DeviceTrust.Token.Compact
import DeviceTrust.Token.Error
import DeviceTrust.Token.Issuance
import DeviceTrust.Token.KeyFile
import DeviceTrust.Token.TrustStore
import DeviceTrust.Token.Verifier
import DeviceTrust.Toml.Decode
import DeviceTrust.Toml.Moment
import DeviceTrust.Toml.Number
import DeviceTrust.Toml.Reader
import DeviceTrust.Toml.Text
import DeviceTrust.Toml.Value
import DeviceTrust.Uuid
import DeviceTrust.Web.Address
import DeviceTrust.Web.Request
import DeviceTrust.Web.Response
import DeviceTrust.Proofs.Cipher.Chaining
import DeviceTrust.Proofs.Sealing.Padding
import DeviceTrust.Proofs.Sealing.Unframing
import DeviceTrust.Proofs.Sealing.RoundTrip
import DeviceTrust.Proofs.Sealing.Opening
import DeviceTrust.Proofs.Rsa.Signing
import DeviceTrust.Proofs.Token.Signed
import DeviceTrust.Proofs.Token.Acceptance
import DeviceTrust.Proofs.Token.Audience
import DeviceTrust.Proofs.KeySet.Moves
import DeviceTrust.Proofs.KeySet.Effects
import DeviceTrust.Proofs.KeySet.Ledger
import DeviceTrust.Proofs.KeySet.RateLimit
import DeviceTrust.Proofs.KeySet.Publication
import DeviceTrust.Proofs.KeySet.SingleFlight
import DeviceTrust.Proofs.Json.Integer
import DeviceTrust.Proofs.Json.Spelling
import DeviceTrust.Proofs.Base64.RoundTrip
import DeviceTrust.Proofs.Json.RoundTrip
import DeviceTrust.Proofs.Json.Fields
import DeviceTrust.Proofs.Token.Wire
import DeviceTrust.Proofs.Token.Issued
import DeviceTrust.Proofs.KeySet.WakeUps
import DeviceTrust.Proofs.Token.Rejection
import DeviceTrust.Proofs.Rsa.Verification
import DeviceTrust.Proofs.Token.Algorithm
import DeviceTrust.Proofs.KeySet.Documents
import DeviceTrust.Proofs.Settings.Layering
import DeviceTrust.Proofs.Settings.Precedence
import DeviceTrust.Proofs.Settings.Startup
import DeviceTrust.Proofs.Settings.CodecKey
import DeviceTrust.Proofs.Settings.Provisioning
import DeviceTrust.Proofs.KeySet.Turns
import DeviceTrust.Proofs.KeySet.Staleness
import DeviceTrust.Proofs.KeySet.Accounting
import DeviceTrust.Proofs.KeySet.Failures
import DeviceTrust.Proofs.Token.Validity
import DeviceTrust.Proofs.Token.LegacyExpiry
import DeviceTrust.Proofs.Base64.Canonical
import DeviceTrust.Proofs.Sealing.Texts
import DeviceTrust.Proofs.Sealing.AmbiguousTail
import DeviceTrust.Proofs.Cipher.Vector
import DeviceTrust.Proofs.Sealing.Tampering
import DeviceTrust.Proofs.KeySet.SoleLoop
import DeviceTrust.Proofs.Token.Issuance
import DeviceTrust.Proofs.Json.Number
import DeviceTrust.Proofs.Json.Grammar
import DeviceTrust.Proofs.Json.Record
import DeviceTrust.Proofs.Token.HeaderGrammar
import DeviceTrust.Proofs.Token.ClaimMembers
import DeviceTrust.Proofs.Text.Order
import DeviceTrust.Proofs.Named
import DeviceTrust.Proofs.KeySet.Entries
import DeviceTrust.Proofs.Settings.Listing
