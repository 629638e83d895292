import LinkReconciler.Dict
import LinkReconciler.Interface.Mtu
import LinkReconciler.Interface.Setting
import LinkReconciler.Transceiver.Cage

/-!
The operator's configuration of an interface.
-/

namespace LinkReconciler

structure UserConfig where
  admin : AdminState := .down
  autoneg : AutonegPreference := .unset
  pause : PauseMode := .none
  duplex : Duplex := .full
  speeds : SpeedList := .valid []
  mtu : Mtu := .unset
  laneSplit : LaneSplit := .noSplit
deriving DecidableEq, Repr

namespace UserConfig

/-- Reads the `user_config` column. Unknown words count as not given; speeds the
hardware lacks and sizes beyond the limit are kept as invalid. -/
def ofColumn (column : ColumnMap) (cage : Cage) (maxMtu : UInt32) :
    UserConfig where
  admin := ((column.get? "admin").bind AdminState.find?).getD .down
  autoneg := ((column.get? "autoneg").bind AutonegPreference.find?).getD .unset
  pause := ((column.get? "pause").bind PauseMode.find?).getD .none
  duplex := ((column.get? "duplex").bind Duplex.find?).getD .full
  speeds := ((column.get? "speeds").map fun text =>
    (SpeedList.read text).restrict cage.speeds).getD (.valid [])
  mtu := ((column.get? "mtu").map (Mtu.read · maxMtu)).getD .unset
  laneSplit := ((column.get? "lane_split").bind LaneSplit.find?).getD .noSplit

end UserConfig

end LinkReconciler
