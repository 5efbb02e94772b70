import KeyManagement.Engine.Scripted
import KeyManagement.Main
import KeyManagement.Proofs.Service.Recovery
import KeyManagement.Proofs.Service.Acceptance
import KeyManagement.Proofs.Service.Isolation
import KeyManagement.Proofs.Service.Atomicity
import KeyManagement.Proofs.Service.Request
import KeyManagement.Proofs.Store.Frame
import KeyManagement.Proofs.Service.Effect
import KeyManagement.Proofs.Service.Creation
import KeyManagement.Proofs.Service.Transcript
import KeyManagement.Proofs.Service.Memory
import KeyManagement.Proofs.Store.Census
import KeyManagement.Proofs.Seed.Stage
import KeyManagement.Proofs.Store.NewVersions
import KeyManagement.Proofs.Seed.Fulfilment
import KeyManagement.Proofs.Store.Redaction
import KeyManagement.Proofs.Service.Ideal
import KeyManagement.Proofs.Seed.Ideal
import KeyManagement.Proofs.Seed.Resumption
import KeyManagement.Proofs.Service.Designation
import KeyManagement.Proofs.Store.Listing
import KeyManagement.Proofs.Text.Utf8
import KeyManagement.Proofs.Service.Listing
import KeyManagement.Proofs.Seed.Declaration
import KeyManagement.Proofs.Seed.Progress
import KeyManagement.Proofs.Seed.Refusal
import KeyManagement.Proofs.Service.Mirror
import KeyManagement.Proofs.Engine.Keys
import KeyManagement.Proofs.Service.Secrecy
import KeyManagement.Proofs.Service.Commutation
import KeyManagement.Proofs.Name.Identifier
import KeyManagement.Proofs.Name.Inversion
import KeyManagement.Proofs.Http.Routing
import KeyManagement.Proofs.Http.Answer
import KeyManagement.Proofs.Http.Target
import KeyManagement.Proofs.Text.Base64
import KeyManagement.Proofs.Service.Availability
import KeyManagement.Proofs.Http.Member
import KeyManagement.Proofs.Http.Traffic
import KeyManagement.Proofs.Json.Lexer
import KeyManagement.Proofs.Json.RoundTrip
import KeyManagement.Proofs.Json.Size
import KeyManagement.Proofs.Http.RoundTrip
import KeyManagement.Proofs.Context.Cancellation
import KeyManagement.Proofs.Store.Primary
import KeyManagement.Proofs.Store.Retrieval
import KeyManagement.Proofs.Store.NextNumber
import KeyManagement.Proofs.Configuration.Usable
import KeyManagement.Proofs.Engine.Inversion
import KeyManagement.Proofs.Service.Encryption
import KeyManagement.Proofs.Service.PrimaryUpdate
import KeyManagement.Proofs.Http.Failure
import KeyManagement.Proofs.Service.Corruption
import KeyManagement.Proofs.Resource.Codec
import KeyManagement.Proofs.Address.Reader
import KeyManagement.Proofs.Configuration.Literal
import KeyManagement.Proofs.Configuration.Variables
import KeyManagement.Proofs.Store.RangeScan
import KeyManagement.Proofs.Name.VersionNumber
