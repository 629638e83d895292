import LinkReconciler.Dict
import LinkReconciler.Transceiver.Connector

/-!
What module detection found in the cage of an interface.
-/

namespace LinkReconciler

structure ModuleReport where
  connector : Connector := .unknown
  status : ConnectorStatus := .unrecognized
  supportedSpeeds : Option String := none
deriving DecidableEq, Repr

namespace ModuleReport

def ofColumn (column : ColumnMap) : ModuleReport where
  connector := ((column.get? "connector").bind Connector.find?).getD .unknown
  status := ((column.get? "connector_status").bind ConnectorStatus.find?).getD
    .unrecognized
  supportedSpeeds := column.get? "supported_speeds"

end ModuleReport

end LinkReconciler
