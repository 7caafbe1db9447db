import Noise.Listing
import Noise.Pattern.Arrows
import Noise.Pattern.Catalog
import Noise.Pattern.Record
import Noise.Proofs.Session.Binding
import Noise.Proofs.Session.FailClosed
import Noise.Proofs.Pattern.Acceptance
import Noise.Proofs.Session.Nonces
import Noise.Proofs.Handshake.Guards
import Noise.Proofs.Session.Attackers
import Noise.Proofs.Session.Supply
import Noise.Proofs.Session.Erasure
import Noise.Proofs.Session.Errors
import Noise.Proofs.Session.Lengths
import Noise.Proofs.Session.Order
import Noise.Proofs.Pattern.Records
import Noise.Proofs.Session.PeerIdentity
import Noise.Proofs.Listing
