import LinkReconciler.Error
import LinkReconciler.Interface.Entity

/-!
The interfaces and ports the reconciler knows of, by name. Interfaces refer to
their split parent and children, and ports to their members, by name only.
-/

namespace LinkReconciler

/-- A port groups interfaces, which inherit its admin state. -/
structure Port where
  name : String
  admin : AdminState
  members : List String
deriving DecidableEq, Repr

namespace Port

def adminOf : Option String → AdminState
  | none => .up
  | some text => if text = "up" then .up else .down

def ofRow (row : PortRow) : Port where
  name := row.name
  admin := adminOf row.admin
  members := row.interfaces

def hasMember (port : Port) (interface : String) : Bool :=
  port.members.contains interface

end Port

structure Registry where
  interfaces : Dict Interface := ∅
  ports : Dict Port := ∅
deriving DecidableEq

namespace Registry

instance : EmptyCollection Registry := ⟨{}⟩

/-! ## Interfaces -/

def interface? (registry : Registry) (name : String) : Option Interface :=
  registry.interfaces.get? name

def hasInterface (registry : Registry) (name : String) : Bool :=
  registry.interfaces.contains name

/-- Adds a new interface; a known name is refused, never replaced. -/
def insertInterface (registry : Registry) (interface : Interface) :
    Except Failure Registry :=
  if registry.hasInterface interface.name then
    .error (.duplicateEntry "Interface" interface.name)
  else
    .ok { registry with
      interfaces := registry.interfaces.insert interface.name interface }

def removeInterface (registry : Registry) (name : String) : Registry :=
  { registry with interfaces := registry.interfaces.erase name }

def modifyInterface (registry : Registry) (name : String)
    (change : Interface → Interface) : Registry :=
  { registry with interfaces := registry.interfaces.modify name change }

def getInterface (registry : Registry) (name : String) :
    Except Failure Interface :=
  match registry.interface? name with
  | some interface => .ok interface
  | none => .error (.entryNotFound "Interface" name)

/-! ## Ports -/

def port? (registry : Registry) (name : String) : Option Port :=
  registry.ports.get? name

def insertPort (registry : Registry) (port : Port) : Except Failure Registry :=
  if registry.ports.contains port.name then
    .error (.duplicateEntry "Port" port.name)
  else .ok { registry with ports := registry.ports.insert port.name port }

def replacePort (registry : Registry) (port : Port) :
    Except Failure (Port × Registry) :=
  match registry.port? port.name with
  | some old =>
      .ok (old, { registry with ports := registry.ports.insert port.name port })
  | none => .error (.entryNotFound "Port" port.name)

def removePort (registry : Registry) (name : String) : Registry :=
  { registry with ports := registry.ports.erase name }

/-- The first port in name order that lists the interface. -/
def portClaiming? (registry : Registry) (interface : String) : Option Port :=
  registry.ports.values.find? (·.hasMember interface)

/-- The admin state an interface inherits; one no port claims is down. -/
def inheritedAdmin (registry : Registry) (interface : String) : AdminState :=
  match registry.portClaiming? interface with
  | some port => port.admin
  | none => .down

end Registry

end LinkReconciler
