import LinkReconciler.Forwarding.LayerState
import LinkReconciler.Interface.Entity

/-!
Whether an interface may forward traffic. Every interface has a chain of layers,
outward from the medium; a layer is blocked when the layer below it is, when the
interface is out of service, or when one of the layer's protocols asks for it.
The blocking protocol of lowest rank owns the layer and is given as the reason.
-/

namespace LinkReconciler

inductive Signal where
  | forward
  | block
deriving DecidableEq, Repr

structure Protocol where
  id : ProtocolId
  signal : Interface → Signal

inductive LayerId where
  | aggregation
deriving DecidableEq, Repr

structure Layer where
  id : LayerId
  protocols : List Protocol

/-- A chain of layers; with the gate, all are blocked until the hardware is ready. -/
structure Arbiter where
  layers : List Layer
  gate : Bool := false

namespace Protocol

/-- Link aggregation blocks unless the member's bond is absent or up. -/
def lacp : Protocol where
  id := .lacp
  signal interface :=
    match interface.bondState with
    | none => .forward
    | some state => if state = "up" then .forward else .block

def act (protocol : Protocol) (interface : Interface) (state : LayerState) :
    Bool × LayerState :=
  match protocol.signal interface with
  | .block =>
      let owner :=
        match state.owner with
        | some owner =>
            if state.blocked && protocol.id.rank ≥ owner.rank then owner
            else protocol.id
        | none => protocol.id
      (true, .blockedBy owner)
  | .forward =>
      if state.blocked && state.owner = some protocol.id then (false, .clear)
      else (false, state)

end Protocol

namespace LayerId

def forwardingKey : LayerId → String
  | aggregation => "interface_aggregation_forwarding"

def reasonKey : LayerId → String
  | aggregation => "interface_aggregation_blocked_reason"

end LayerId

namespace Layer

/-- Runs the protocols up to the first that asks to block. If none does, the
layer is open. -/
def runProtocols (interface : Interface) :
    List Protocol → LayerState → LayerState
  | [], _ => .clear
  | protocol :: rest, state =>
      match protocol.act interface state with
      | (true, blocked) => blocked
      | (false, after) => runProtocols interface rest after

/-- The state a forwarding column last gave the layer. -/
def restore (column : ColumnMap) (layer : Layer) : LayerState where
  blocked := column.get? layer.id.forwardingKey = some "false"
  owner := (column.get? layer.id.reasonKey).bind ProtocolId.find?

/-- Writes the state of the layer. A layer blocked from outside has no entry. -/
def write (layer : Layer) (state : LayerState) (column : ColumnMap) : ColumnMap :=
  match state.owner with
  | some owner =>
      (column.insert layer.id.forwardingKey
        (if state.blocked then "false" else "true")).insert
          layer.id.reasonKey owner.word
  | none =>
      if state.blocked then
        (column.erase layer.id.forwardingKey).erase layer.id.reasonKey
      else (column.insert layer.id.forwardingKey "true").erase layer.id.reasonKey

end Layer

namespace Arbiter

def standard (gate : Bool) : Arbiter where
  layers := [⟨.aggregation, [.lacp]⟩]
  gate := gate

def restore (arbiter : Arbiter) (column : ColumnMap) : List LayerState :=
  arbiter.layers.map (Layer.restore column)

def holdsBack (arbiter : Arbiter) (interface : Interface) : Bool :=
  !interface.oper.enabled || arbiter.gate && !interface.hwReady

def runLayers (arbiter : Arbiter) (interface : Interface) :
    Bool → List (Layer × LayerState) → ColumnMap → List LayerState × ColumnMap
  | _, [], column => ([], column)
  | below, (layer, state) :: rest, column =>
      let after :=
        if below || arbiter.holdsBack interface then .blockedUnowned
        else Layer.runProtocols interface layer.protocols state
      let (states, column) :=
        runLayers arbiter interface after.blocked rest (layer.write after column)
      (after :: states, column)

def outermostBlocked (states : List LayerState) : Bool :=
  match states.getLast? with
  | some state => state.blocked
  | none => false

def withoutLayers (interface : Interface) : Interface :=
  { interface with layers := [] }

/-- The layer states and the forwarding column of an interface. States that do
not fit the chain are first read back from the column. -/
def arbitrate (arbiter : Arbiter) (interface : Interface) :
    List LayerState × ColumnMap :=
  let before :=
    if interface.layers.length = arbiter.layers.length then interface.layers
    else arbiter.restore interface.forwarding
  let (states, column) := arbiter.runLayers (withoutLayers interface) false
    (arbiter.layers.zip before) interface.forwarding
  (states, column.insert "forwarding"
    (if outermostBlocked states then "false" else "true"))

end Arbiter

end LinkReconciler
