import ScatterGather.Bench.View
import ScatterGather.Machine.Setup
import ScatterGather.Proofs.Custody
import ScatterGather.Proofs.Order
import ScatterGather.Proofs.ReceiveRig
import ScatterGather.Proofs.TransmitRig
import ScatterGather.Proofs.Liveness
import ScatterGather.Proofs.Fifo
import ScatterGather.Proofs.Interleaving
import ScatterGather.Proofs.LateLink
import ScatterGather.Proofs.Running
import ScatterGather.Proofs.Footprint
import ScatterGather.Proofs.Tenure
import ScatterGather.Proofs.Tending
import ScatterGather.Proofs.Claiming
import ScatterGather.Proofs.Tenancy
import ScatterGather.Proofs.Settled
import ScatterGather.Proofs.Exclusion
import ScatterGather.Proofs.Position
import ScatterGather.Proofs.LateService
import ScatterGather.Proofs.Coherence
import ScatterGather.Proofs.PumpCoherence
import ScatterGather.Proofs.Checked
import ScatterGather.Proofs.CheckedPump
import ScatterGather.Proofs.Robustness
import ScatterGather.Proofs.Likeness
import ScatterGather.Proofs.LivePush
import ScatterGather.Proofs.Recovery
import ScatterGather.Proofs.ZeroCopy
import ScatterGather.Proofs.Transparency
import ScatterGather.Proofs.Waking
import ScatterGather.Proofs.Measuring
import ScatterGather.Proofs.EarlyIdle
import ScatterGather.Proofs.Estate
import ScatterGather.Proofs.Turns
import ScatterGather.Proofs.Independence
import ScatterGather.Proofs.Stint
import ScatterGather.Proofs.Folding
import ScatterGather.Proofs.Stranding
import ScatterGather.Proofs.Withdrawal
import ScatterGather.Proofs.Refusal
import ScatterGather.Proofs.Arming
import ScatterGather.Proofs.Linkage
import ScatterGather.Proofs.Moving
import ScatterGather.Proofs.Naming
import ScatterGather.Proofs.Statistics
import ScatterGather.Proofs.Nesting
import ScatterGather.Proofs.BoundedWait
import ScatterGather.Proofs.Portions
