import Dataflow.Arena.Call
import Dataflow.Session
import Dataflow.Proofs.Reach
import Dataflow.Proofs.Tagging
import Dataflow.Proofs.Linked
import Dataflow.Proofs.Erasure
import Dataflow.Proofs.Interchange
import Dataflow.Proofs.Removed
import Dataflow.Proofs.Sweeps
import Dataflow.Proofs.Built
import Dataflow.Proofs.Spared
import Dataflow.Proofs.Survivors
import Dataflow.Proofs.Settled
import Dataflow.Proofs.Wiring
import Dataflow.Proofs.Kept
import Dataflow.Proofs.Persistence
import Dataflow.Proofs.Orphans
import Dataflow.Proofs.Accounts
import Dataflow.Proofs.Naming
import Dataflow.Proofs.Anchored
import Dataflow.Proofs.Outline
import Dataflow.Proofs.Compared
import Dataflow.Proofs.Detached
import Dataflow.Proofs.Codes
import Dataflow.Proofs.Labels
import Dataflow.Proofs.Constancy
import Dataflow.Proofs.Joining
import Dataflow.Proofs.Drawing
import Dataflow.Proofs.Draining
import Dataflow.Proofs.Regions
import Dataflow.Proofs.Counted
import Dataflow.Proofs.Ledger
