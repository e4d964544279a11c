import PeerDiscovery.Main
import PeerDiscovery.Search.Run
import PeerDiscovery.Proofs.Search.Cooldown
import PeerDiscovery.Proofs.Search.Correlation
import PeerDiscovery.Proofs.Search.Publication
import PeerDiscovery.Proofs.Search.Restraint
import PeerDiscovery.Proofs.Bencode.Inversion
import PeerDiscovery.Proofs.Bencode.Nesting
import PeerDiscovery.Proofs.Krpc.WellFormed
import PeerDiscovery.Proofs.Search.Budget
import PeerDiscovery.Proofs.CommandLine.Inversion
import PeerDiscovery.Proofs.Service.Recorded
import PeerDiscovery.Proofs.CommandLine.Standstill
import PeerDiscovery.Proofs.Bencode.Derivation
import PeerDiscovery.Proofs.Bencode.Acceptance
import PeerDiscovery.Proofs.Bencode.Canonical
import PeerDiscovery.Proofs.Bencode.SelfDelimiting
import PeerDiscovery.Proofs.Bencode.Bounds
import PeerDiscovery.Proofs.Identifier.Distance
import PeerDiscovery.Proofs.Search.Conservation
import PeerDiscovery.Proofs.Search.Footprint
import PeerDiscovery.Proofs.KnownNode.Remembrance
import PeerDiscovery.Proofs.KnownNode.Minting
import PeerDiscovery.Proofs.Search.Progress
import PeerDiscovery.Proofs.Search.Reordering
import PeerDiscovery.Proofs.Service.Sequential
import PeerDiscovery.Proofs.Search.Totals
import PeerDiscovery.Proofs.Search.Growth
import PeerDiscovery.Proofs.Search.Repetition
import PeerDiscovery.Proofs.CommandLine.Precedence
import PeerDiscovery.Proofs.Search.References
import PeerDiscovery.Proofs.Service.Outlets
import PeerDiscovery.Proofs.Krpc.Acceptance
import PeerDiscovery.Proofs.Ranking
import PeerDiscovery.Proofs.Search.Joining
import PeerDiscovery.Proofs.Identifier.Text
import PeerDiscovery.Proofs.Address.Alphabet
import PeerDiscovery.Proofs.Contact.Text
