import Breadboard.Main
import Breadboard.Chip.FileTree
import Breadboard.Cpu.Bench
import Breadboard.Pacing.Desk
import Breadboard.Proofs.Overlay
import Breadboard.Proofs.Credit
import Breadboard.Proofs.Paced
import Breadboard.Proofs.Arbitration
import Breadboard.Proofs.Faults
import Breadboard.Proofs.Wakeup
import Breadboard.Proofs.Analyser
import Breadboard.Proofs.Doings
import Breadboard.Proofs.Latching
import Breadboard.Proofs.Edges
import Breadboard.Proofs.Itinerary
import Breadboard.Proofs.Nesting
import Breadboard.Proofs.Chronicle
import Breadboard.Proofs.Handwired
import Breadboard.Proofs.Amnesia
import Breadboard.Proofs.Charges
import Breadboard.Proofs.Discretion
import Breadboard.Proofs.Footprint
import Breadboard.Proofs.LongSums
import Breadboard.Proofs.DecimalSums
import Breadboard.Proofs.Readiness
import Breadboard.Proofs.Fitting
import Breadboard.Proofs.Quota
import Breadboard.Proofs.Rings
import Breadboard.Proofs.Refusals
import Breadboard.Proofs.Restraint
