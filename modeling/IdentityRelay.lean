import IdentityRelay.Main
import IdentityRelay.Relay.RawReply
import IdentityRelay.Proofs.Http.Finality
import IdentityRelay.Proofs.Http.RoundTrip
import IdentityRelay.Proofs.Server.Calls
import IdentityRelay.Proofs.Server.Stream
import IdentityRelay.Proofs.Url.Path
import IdentityRelay.Proofs.Url.Address
import IdentityRelay.Proofs.Url.Host
import IdentityRelay.Proofs.Url.Authority
import IdentityRelay.Proofs.Url.Base
import IdentityRelay.Proofs.Relay.Target
import IdentityRelay.Proofs.Relay.OriginForm
import IdentityRelay.Proofs.Relay.Prefix
import IdentityRelay.Proofs.Http.Progress
import IdentityRelay.Proofs.Config.BaseUrl
import IdentityRelay.Proofs.Config.Layers
import IdentityRelay.Proofs.Http.RawFields
import IdentityRelay.Proofs.Relay.Fields
import IdentityRelay.Proofs.Relay.Secrecy
import IdentityRelay.Proofs.Server.Secrecy
import IdentityRelay.Proofs.Http.ChunkedRequest
import IdentityRelay.Proofs.Text.Numeral
import IdentityRelay.Proofs.Http.LengthSpelling
import IdentityRelay.Proofs.Http.Codings
import IdentityRelay.Proofs.Http.EmptyLines
import IdentityRelay.Proofs.Http.HeadAlone
import IdentityRelay.Proofs.Http.IndexedBody
import IdentityRelay.Proofs.Http.IndexedRequest
import IdentityRelay.Proofs.Relay.ConfiguredIdentity
import IdentityRelay.Proofs.Http.ReadBack
import IdentityRelay.Proofs.Relay.Transparency
import IdentityRelay.Proofs.Relay.Capacity
import IdentityRelay.Proofs.Server.Writing
import IdentityRelay.Proofs.Server.Finished
import IdentityRelay.Proofs.Server.Closing
import IdentityRelay.Proofs.Config.Agreement
import IdentityRelay.Proofs.Relay.AbsoluteForm
import IdentityRelay.Proofs.Relay.BodyStream
import IdentityRelay.Proofs.Http.Cookies
import IdentityRelay.Proofs.Http.Multimap
import IdentityRelay.Proofs.Http.Rewriting
