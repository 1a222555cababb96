import Kademlia.Address.Text
import Kademlia.Bencode.Order
import Kademlia.Bencode.Text
import Kademlia.Bootstrap
import Kademlia.Lookup
import Kademlia.Message.Reader
import Kademlia.NodeId.Document
import Kademlia.PeerStore
import Kademlia.Routing.Refresh
import Kademlia.Session
import Kademlia.Settings
import Kademlia.Timer
import Kademlia.Token
import Kademlia.Proofs.Bencode.Grammar
import Kademlia.Proofs.Bencode.RoundTrip
import Kademlia.Proofs.Bencode.Padding
import Kademlia.Proofs.Bencode.Truncation
import Kademlia.Proofs.Compact.Exact
import Kademlia.Proofs.Message.RoundTrip
import Kademlia.Proofs.Message.Ascending
import Kademlia.Proofs.PeerStore.History
import Kademlia.Proofs.PeerStore.Accounting
import Kademlia.Proofs.PeerStore.Capacity
import Kademlia.Proofs.PeerStore.Order
import Kademlia.Proofs.Announce.FanOut
import Kademlia.Proofs.Routing.Hearsay
import Kademlia.Proofs.Routing.Newcomers
import Kademlia.Proofs.Routing.Nearest
import Kademlia.Proofs.Routing.Reliance
import Kademlia.Proofs.Lookup.Rounds
import Kademlia.Proofs.Lookup.Answers
import Kademlia.Proofs.Lookup.Remainder
import Kademlia.Proofs.Lookup.Peers
import Kademlia.Proofs.Timer.Delivery
import Kademlia.Proofs.Transactions.Fates
import Kademlia.Proofs.NodeId.Beginning
import Kademlia.Proofs.NodeId.Metric
import Kademlia.Proofs.Token.Mask
import Kademlia.Proofs.Token.Separation
import Kademlia.Proofs.LocalNode.Completion
import Kademlia.Proofs.LocalNode.Correlation
import Kademlia.Proofs.LocalNode.Phases
import Kademlia.Proofs.LocalNode.Replying
import Kademlia.Proofs.LocalNode.Entering
import Kademlia.Proofs.LocalNode.Waiting
import Kademlia.Proofs.LocalNode.Fitting
import Kademlia.Proofs.LocalNode.Listing
import Kademlia.Proofs.LocalNode.Charging
import Kademlia.Proofs.LocalNode.Storing
import Kademlia.Proofs.LocalNode.Claiming
import Kademlia.Proofs.LocalNode.Reporting
import Kademlia.Proofs.LocalNode.Loops
import Kademlia.Proofs.LocalNode.Upkeep
import Kademlia.Proofs.Bencode.Building
import Kademlia.Proofs.Message.Families
import Kademlia.Proofs.Routing.Revolving
