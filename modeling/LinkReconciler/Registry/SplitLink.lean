import LinkReconciler.Registry

/-!
Links between a splittable interface and the children that take over its lanes.
A child has no module of its own while its parent is known: it sees the parent's
module through one lane. A link may name an interface that is not known yet; it
takes effect when that interface appears.
-/

namespace LinkReconciler.Registry

def parent? (registry : Registry) (interface : Interface) : Option Interface :=
  interface.splitParent.bind registry.interface?

/-- The transceiver an interface of the registry should use. -/
def transceiverDue (registry : Registry) (interface : Interface) : Transceiver :=
  match registry.parent? interface with
  | some parent => .ofLane parent.report
  | none => .ofCage interface.cage interface.report

def dueTransceiver? (registry : Registry) (name : String) :
    Option Transceiver :=
  (registry.interface? name).map registry.transceiverDue

def laneSplitAbove? (registry : Registry) (name : String) : Option LaneSplit :=
  (registry.interface? name).bind fun interface =>
    (registry.parent? interface).map (·.user.laneSplit)

def renew (registry : Registry) (name : String) : Registry :=
  registry.modifyInterface name fun interface =>
    { interface with transceiver := registry.transceiverDue interface }

def renewAll (registry : Registry) (names : List String) : Registry :=
  names.foldl renew registry

/-- Whether the transceiver in effect is another than it should be. -/
def isStale (registry : Registry) (name : String) : Bool :=
  match registry.interface? name with
  | some interface => interface.transceiver ≠ registry.transceiverDue interface
  | none => false

def childrenOf (registry : Registry) (name : String) : List String :=
  match registry.interface? name with
  | some interface => interface.splitChildren
  | none => []

def pointsTo (registry : Registry) (parent child : String) : Bool :=
  match registry.interface? child with
  | some interface => interface.splitParent = some parent
  | none => false

def linkedChildren (registry : Registry) (name : String) : List String :=
  (registry.childrenOf name).filter (registry.pointsTo name)

def knownChildren (registry : Registry) (name : String) : List String :=
  (registry.childrenOf name).filter registry.hasInterface

def withKnownParent (registry : Registry) (name : String) : List String :=
  match (registry.interface? name).bind registry.parent? with
  | some _ => [name]
  | none => []

/-- Takes up the links of an interface that has just appeared or was relinked.
Gives the children that see its module from now on. -/
def link (registry : Registry) (name : String) : List String × Registry :=
  let linked := registry.linkedChildren name
  (linked, registry.renewAll (registry.withKnownParent name ++ linked))

/-- Renews the transceivers of the known children after the parent changed. -/
def renewChildren (registry : Registry) (name : String) :
    List String × Registry :=
  let known := registry.knownChildren name
  (known, registry.renewAll known)

end LinkReconciler.Registry
