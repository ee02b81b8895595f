import ArcRelay.Lib.Program
import ArcRelay.Lib.Run
import ArcRelay.Lib.Pool
import ArcRelay.Lib.Conduct
import ArcRelay.Lib.Crash
import ArcRelay.Lib.Duplex
import ArcRelay.Lib.Fallible
import ArcRelay.Lib.JoinSet
import ArcRelay.Lib.Lock
import ArcRelay.Lib.Recency
import ArcRelay.Lib.Table
import ArcRelay.Lib.Mapping
import ArcRelay.Lib.Sides
import ArcRelay.Lib.Window
import ArcRelay.Lib.Withdrawal
import ArcRelay.Basic
import ArcRelay.Endpoint
import ArcRelay.Discovery
import ArcRelay.Trust
import ArcRelay.Wire
import ArcRelay.Platform
import ArcRelay.Advertising
import ArcRelay.Session
import ArcRelay.Protocol
import ArcRelay.Registry
import ArcRelay.Repository
import ArcRelay.World
import ArcRelay.Runtime
import ArcRelay.Trusting
import ArcRelay.Handshake
import ArcRelay.Dialing
import ArcRelay.EndpointHistory
import ArcRelay.PeerStore
import ArcRelay.EndpointRepository
import ArcRelay.Routes
import ArcRelay.Pairing
import ArcRelay.FeatureStreams
import ArcRelay.IdentityStore
import ArcRelay.Meeting
import ArcRelay.Relay
import ArcRelay.Scan
import ArcRelay.Scanning
import ArcRelay.Shutdown
import ArcRelay.System
import ArcRelay.TwoParty
import ArcRelay.Visibility
import ArcRelay.Verif.Protocol
import ArcRelay.Verif.Registry
import ArcRelay.Verif.Repository
import ArcRelay.Verif.World
import ArcRelay.Verif.Trusting
import ArcRelay.Verif.Handshake
import ArcRelay.Verif.Admission
import ArcRelay.Verif.Discovery
import ArcRelay.Verif.Routes
import ArcRelay.Verif.Merging
import ArcRelay.Verif.Advertising
import ArcRelay.Verif.Agreement
import ArcRelay.Verif.Teardown
import ArcRelay.Verif.Restart
import ArcRelay.Verif.Arbitration
import ArcRelay.Verif.Conduct
import ArcRelay.Verif.Racing
import ArcRelay.Verif.Candidates
import ArcRelay.Verif.EndpointHistory
import ArcRelay.Verif.PeerStore
import ArcRelay.Verif.EndpointAgreement
import ArcRelay.Verif.EndpointBooks
import ArcRelay.Verif.BackOff
import ArcRelay.Verif.LinkLocal
import ArcRelay.Verif.Forgetting
import ArcRelay.Verif.Pairing
import ArcRelay.Verif.GrantUpdates
import ArcRelay.Verif.PairingRequest
import ArcRelay.Verif.Exits
import ArcRelay.Verif.FeatureStreams
import ArcRelay.Verif.Gates
import ArcRelay.Verif.Hiding
import ArcRelay.Verif.Provenance
import ArcRelay.Verif.Identity
import ArcRelay.Verif.IdentityStore
import ArcRelay.Verif.Loopback
import ArcRelay.Verif.Visibility
import ArcRelay.Verif.OwnHello
import ArcRelay.Verif.Meeting
import ArcRelay.Verif.TwoParty
import ArcRelay.Verif.Opposing
import ArcRelay.Verif.Overlap
import ArcRelay.Verif.ProbeRate
import ArcRelay.Verif.Revocation
import ArcRelay.Verif.Publication
import ArcRelay.Verif.Races
import ArcRelay.Verif.RaceWinner
import ArcRelay.Verif.Reconnect
import ArcRelay.Verif.Relay
import ArcRelay.Verif.Scan
import ArcRelay.Verif.Scanning
import ArcRelay.Verif.Shutdown
import ArcRelay.Verif.TrustOrigin
