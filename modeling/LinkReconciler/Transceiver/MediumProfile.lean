import LinkReconciler.Autoneg
import LinkReconciler.Transceiver.Resolution

/-!
What a transceiver asks of its link: whether it must negotiate, and the speed it
runs at when the operator gives none.
-/

namespace LinkReconciler

structure MediumProfile where
  capability : AutonegCapability
  defaultSpeeds : List Speed
deriving DecidableEq, Repr

namespace MediumProfile

def copperOnly (isCopper : Bool) : AutonegCapability :=
  if isCopper then .required else .unsupported

/-- Links of no known family are internal ones, which always negotiate. -/
def ofTransceiver (transceiver : Transceiver) : MediumProfile :=
  let flags := transceiver.flags
  let connector := transceiver.connector
  if flags.sfpFamily && flags.sfpPlus10G then ⟨.unsupported, [10000]⟩
  else if flags.sfpFamily && flags.sfp28At25G then
    ⟨copperOnly (connector = .sfp28Cr), [25000]⟩
  else if flags.sfpFamily then ⟨.required, [1000]⟩
  else if flags.qsfpFamily && flags.qsfpPlus40G then
    ⟨copperOnly (connector = .qsfpCr4), [40000]⟩
  else if flags.qsfpFamily && flags.qsfp28At100G then
    ⟨copperOnly (connector = .qsfp28Cr4), [100000]⟩
  else ⟨.required, []⟩

end MediumProfile

end LinkReconciler
