import RustdResolved.Daemon.Executor
import RustdResolved.Dnssec.AnchorLookup
import RustdResolved.Dnssec.DenialZone
import RustdResolved.Dnssec.KeyTags
import RustdResolved.Dnssec.NsecSoundness
import RustdResolved.Dnssec.PublishedAnchors
import RustdResolved.Dnssec.SecureAnswers
import RustdResolved.Dnssec.SignedOrder
import RustdResolved.Dnssec.Synthesis
import RustdResolved.Edns.Attempts
import RustdResolved.Edns.DnssecOk
import RustdResolved.Edns.FeatureRuns
import RustdResolved.HostsFile.Inverse
import RustdResolved.Json.RoundTrip
import RustdResolved.Mdns.KnownAnswers
import RustdResolved.Mdns.Probing
import RustdResolved.Mdns.SelfConflict
import RustdResolved.Mdns.ServiceIsolation
import RustdResolved.Mdns.TranslatedReplies
import RustdResolved.Query.Leaders
import RustdResolved.Query.Lifetimes
import RustdResolved.Query.Unvalidated
import RustdResolved.Rfc5011.HoldDown
import RustdResolved.Rfc5011.KeySet
import RustdResolved.Rfc5011.Persistence
import RustdResolved.Rfc5011.Provenance
import RustdResolved.Routing.Invalidation
import RustdResolved.Routing.LinkFiles
import RustdResolved.Routing.LinkMonitor
import RustdResolved.Routing.SpecText
import RustdResolved.Routing.WireNames
import RustdResolved.Varlink.Framing
import RustdResolved.Wire.Progress
import RustdResolved.Edns.Replies
