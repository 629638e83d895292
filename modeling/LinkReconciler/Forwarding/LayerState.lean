import LinkReconciler.Text.Vocabulary

/-!
The state of one forwarding layer of an interface: whether it is blocked, and by
which protocol.
-/

namespace LinkReconciler

inductive ProtocolId where
  | lacp
deriving DecidableEq, Repr

namespace ProtocolId

def values : List ProtocolId := [lacp]

def word : ProtocolId → String
  | lacp => "lacp"

def find? : String → Option ProtocolId :=
  Vocabulary.find? word values

def read : String → Except UnknownWord ProtocolId :=
  Vocabulary.read "forwarding protocol" find?

/-- Of two protocols that block, the one of lower rank owns the layer. -/
def rank : ProtocolId → Nat
  | lacp => 0

end ProtocolId

structure LayerState where
  owner : Option ProtocolId := none
  blocked : Bool := false
deriving DecidableEq, Repr

namespace LayerState

def clear : LayerState := ⟨none, false⟩

def blockedUnowned : LayerState := ⟨none, true⟩

def blockedBy (owner : ProtocolId) : LayerState := ⟨some owner, true⟩

end LayerState

end LinkReconciler
