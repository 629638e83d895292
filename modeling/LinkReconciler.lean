import LinkReconciler.Main
import LinkReconciler.Manager.Run
import LinkReconciler.Proofs.ChangeFold
import LinkReconciler.Proofs.RegistryFrame
import LinkReconciler.Proofs.WorkStep
import LinkReconciler.Proofs.Absorption
import LinkReconciler.Proofs.SplitTracking
import LinkReconciler.Proofs.LinkWalk
import LinkReconciler.Proofs.AbsorbedLinks
import LinkReconciler.Proofs.Settlement
import LinkReconciler.Proofs.Arbitration
import LinkReconciler.Proofs.Reconciliation
import LinkReconciler.Proofs.DerivedState
import LinkReconciler.Proofs.SessionRun
import LinkReconciler.Proofs.SessionTables
import LinkReconciler.Proofs.Rounds
import LinkReconciler.Proofs.StoreMirror
import LinkReconciler.Proofs.WrittenColumns
import LinkReconciler.Proofs.Restart
import LinkReconciler.Proofs.SplitPair
import LinkReconciler.Proofs.LaneExclusion
import LinkReconciler.Proofs.LostConfiguration
import LinkReconciler.Proofs.Convergence
import LinkReconciler.Proofs.Locality
import LinkReconciler.Proofs.Deferral
import LinkReconciler.Proofs.Repetition
import LinkReconciler.Proofs.BatchOrder
import LinkReconciler.Proofs.OvertakenWrite
import LinkReconciler.Proofs.BatchInvariant
import LinkReconciler.Proofs.ForwardingPermit
import LinkReconciler.Proofs.NumericSettings
import LinkReconciler.Proofs.HardwareColumns
import LinkReconciler.Proofs.ReasonChain
import LinkReconciler.Proofs.ColumnBaseline
import LinkReconciler.Proofs.WrittenDifference
import LinkReconciler.Proofs.PortOwnership
import LinkReconciler.Proofs.QueueFold
import LinkReconciler.Proofs.QueueHistory
import LinkReconciler.Proofs.Delivery
import LinkReconciler.Proofs.PassGate
import LinkReconciler.Proofs.IssuedWrites
import LinkReconciler.Proofs.SnapshotImage
