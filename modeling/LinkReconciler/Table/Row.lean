import LinkReconciler.Dict

/-!
The rows of the switch database. A row carries its own name; the key it is stored
or announced under is kept beside it and need not agree with that name.
-/

namespace LinkReconciler

/-- A row of the Interface table. The last three columns are written back by the
reconciler, the others by its clients. -/
structure InterfaceRow where
  name : String := ""
  kind : String := ""
  userConfig : ColumnMap := ∅
  hwInfo : ColumnMap := ∅
  moduleInfo : ColumnMap := ∅
  bondStatus : ColumnMap := ∅
  hwStatus : ColumnMap := ∅
  splitParent : Option String := none
  splitChildren : List String := []
  hwConfig : ColumnMap := ∅
  forwarding : ColumnMap := ∅
  error : Option String := none
deriving DecidableEq

structure PortRow where
  name : String := ""
  admin : Option String := none
  interfaces : List String := []
deriving DecidableEq

structure SubsystemRow where
  name : String := ""
  otherInfo : ColumnMap := ∅
deriving DecidableEq

/-- The one row of the System table; the generation is zero until the system
has loaded its configuration. -/
structure SystemRow where
  generation : Int64 := 0
deriving DecidableEq

structure Snapshot where
  system : SystemRow := {}
  subsystems : List SubsystemRow := []
  interfaces : List InterfaceRow := []
  ports : List PortRow := []
deriving DecidableEq

class Named (ρ : Type) where
  name : ρ → String

instance : Named InterfaceRow := ⟨InterfaceRow.name⟩
instance : Named PortRow := ⟨PortRow.name⟩
instance : Named SubsystemRow := ⟨SubsystemRow.name⟩

end LinkReconciler
