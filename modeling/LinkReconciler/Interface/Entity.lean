import LinkReconciler.Autoneg
import LinkReconciler.Forwarding.LayerState
import LinkReconciler.Interface.UserConfig
import LinkReconciler.Table.Row
import LinkReconciler.Transceiver.Resolution

/-!
What is known of one interface: what its row says, read into types; the
transceiver in effect; the operational state derived from both; and the columns
last written for it.
-/

namespace LinkReconciler

structure OperState where
  enabled : Bool := false
  reason : DisableReason := .uninitialized
  duplex : Duplex := .full
  pause : PauseMode := .none
  autonegCapability : AutonegCapability := .required
  autonegState : AutonegState := .disabled
  autonegReason : Option DisableReason := none
  mtu : Mtu := .unset
  speeds : SpeedList := .valid []
deriving DecidableEq, Repr

structure Interface where
  name : String := ""
  kind : InterfaceKind := .system
  /-- The column `user` was read from, which is read again under a new limit. -/
  userColumn : ColumnMap := ∅
  user : UserConfig := {}
  cage : Cage := {}
  /-- The report on the interface's own module. -/
  report : ModuleReport := {}
  /-- The transceiver in effect, which for a split child is its parent's. -/
  transceiver : Transceiver := {}
  oper : OperState := {}
  /-- The admin state of the port the interface belongs to. -/
  portAdmin : AdminState := .down
  splitParent : Option String := none
  splitChildren : List String := []
  bondState : Option String := none
  hwReady : Bool := false
  /-- The forwarding layers, outward from the medium. -/
  layers : List LayerState := []
  forwarding : ColumnMap := ∅
  hwConfig : ColumnMap := ∅
  error : Option String := none
deriving DecidableEq

namespace Interface

def ofRow (row : InterfaceRow) (maxMtu : UInt32) : Interface :=
  let cage := Cage.ofColumn row.hwInfo
  let report := ModuleReport.ofColumn row.moduleInfo
  { name := row.name
    kind := .ofColumn row.kind
    userColumn := row.userConfig
    user := .ofColumn row.userConfig cage maxMtu
    cage
    report
    transceiver := .ofCage cage report
    splitParent := row.splitParent
    splitChildren := row.splitChildren
    bondState := row.bondStatus.get? "state"
    hwReady := row.hwStatus.get? "ready" = some "true"
    forwarding := row.forwarding
    hwConfig := row.hwConfig
    error := row.error }

/-- An interface after its row changed. Its transceiver, operational state, port
and forwarding layers stay until they are worked out anew. -/
def update (interface : Interface) (row : InterfaceRow) (maxMtu : UInt32) :
    Interface :=
  { ofRow row maxMtu with
    name := interface.name
    transceiver := interface.transceiver
    oper := interface.oper
    portAdmin := interface.portAdmin
    layers := interface.layers }

def isSplitChild (interface : Interface) : Bool :=
  interface.splitParent.isSome

def isSplitParent (interface : Interface) : Bool :=
  !interface.splitChildren.isEmpty

end Interface

end LinkReconciler
