import LinkReconciler.Table.Row

/-!
Transactions: writes to the three columns the reconciler owns, gathered per
interface. A later write to a column replaces an earlier one.
-/

namespace LinkReconciler

inductive ColumnWrite where
  | error (value : Option String)
  | hwConfig (value : ColumnMap)
  | forwarding (value : ColumnMap)
deriving DecidableEq

structure RowUpdate where
  error : Option (Option String) := none
  hwConfig : Option ColumnMap := none
  forwarding : Option ColumnMap := none
deriving DecidableEq

/-- Column writes, per interface name, that are committed together. -/
structure Transaction where
  updates : Dict RowUpdate := ∅
deriving DecidableEq

namespace ColumnWrite

def apply (row : InterfaceRow) : ColumnWrite → InterfaceRow
  | .error value => { row with error := value }
  | .hwConfig value => { row with hwConfig := value }
  | .forwarding value => { row with forwarding := value }

end ColumnWrite

namespace RowUpdate

def isEmpty (update : RowUpdate) : Bool :=
  update.error.isNone && update.hwConfig.isNone && update.forwarding.isNone

def write (update : RowUpdate) : ColumnWrite → RowUpdate
  | .error value => { update with error := some value }
  | .hwConfig value => { update with hwConfig := some value }
  | .forwarding value => { update with forwarding := some value }

def apply (update : RowUpdate) (row : InterfaceRow) : InterfaceRow :=
  { row with
    error := update.error.getD row.error
    hwConfig := update.hwConfig.getD row.hwConfig
    forwarding := update.forwarding.getD row.forwarding }

end RowUpdate

namespace Transaction

instance : EmptyCollection Transaction := ⟨{}⟩

def get? (transaction : Transaction) (name : String) : Option RowUpdate :=
  transaction.updates.get? name

def write (transaction : Transaction) (name : String) (column : ColumnWrite) :
    Transaction :=
  ⟨transaction.updates.insert name
    (((transaction.get? name).getD {}).write column)⟩

def writeAll (transaction : Transaction)
    (writes : List (String × ColumnWrite)) : Transaction :=
  writes.foldl (fun sofar entry => sofar.write entry.1 entry.2) transaction

/-- Writes a column where its value is to change. -/
def writeIf (transaction : Transaction) (changed : Bool) (name : String)
    (column : ColumnWrite) : Transaction :=
  if changed then transaction.write name column else transaction

def isEmpty (transaction : Transaction) : Bool :=
  transaction.updates.values.all RowUpdate.isEmpty

def size (transaction : Transaction) : Nat :=
  (transaction.updates.values.filter fun update => !update.isEmpty).length

end Transaction

end LinkReconciler
