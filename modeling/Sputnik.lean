import Sputnik.Engine.Datagram
import Sputnik.Services.Registration
import Sputnik.Services.Selection
import Sputnik.Engine.EventLoop
import Sputnik.Heartbeat.Impl
import Sputnik.Heartbeat.Lemmas
import Sputnik.Heartbeat.Retention
import Sputnik.Heartbeat.Silence
import Sputnik.Heartbeat.Sticky
import Sputnik.Forwarder.Rendezvous
import Sputnik.Engine.Listeners
import Sputnik.Services.Listing
import Sputnik.Services.Removal
import Sputnik.Engine.RoundTrip
import Sputnik.Heartbeat.Forgiveness
import Sputnik.Services.Choice
import Sputnik.Engine.DirectURI
import Sputnik.Heartbeat.Duplicates
import Sputnik.Forwarder.Hash
import Sputnik.Services.Identity
import Sputnik.URIPrefixMap.History
import Sputnik.Engine.Pause
import Sputnik.Services.Backends
import Sputnik.Services.Rebuild
import Sputnik.Services.History
import Sputnik.Services.TwoChoices
import Sputnik.Forwarder.Weights
import Sputnik.Forwarder.Cookie
import Sputnik.Engine.BackendLoop
import Sputnik.Lib.Network
import Sputnik.Cluster.Impl
import Sputnik.Cluster.Authentic
import Sputnik.Cluster.Frontend
import Sputnik.Cluster.Safety
import Sputnik.Cluster.Withdrawal
import Sputnik.Heartbeat.Refinement
import Sputnik.Cluster.Progress
import Sputnik.Cluster.Discovery
import Sputnik.Cluster.Recovery
import Sputnik.Cluster.Catalogue
import Sputnik.Lib.TwoChoices
import Sputnik.Cluster.Routing
import Sputnik.Cluster.Shutdown
