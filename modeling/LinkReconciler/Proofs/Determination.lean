import LinkReconciler.Proofs.Arbitration
import LinkReconciler.Proofs.SplitTracking

/-!
What determines a registry. A current interface follows from what its row declares
and from the interfaces and ports around it, all but its layers and its forwarding
column; those follow from the column that the arbitration started from.
-/

namespace LinkReconciler

theorem Interface.eq_of_declared {first second : Interface}
    (same : first.declared = second.declared) :
    second = { first with
      transceiver := second.transceiver, oper := second.oper,
      portAdmin := second.portAdmin, layers := second.layers,
      forwarding := second.forwarding, hwConfig := second.hwConfig,
      error := second.error } := by
  calc second
      = { second.declared with
          transceiver := second.transceiver, oper := second.oper,
          portAdmin := second.portAdmin, layers := second.layers,
          forwarding := second.forwarding, hwConfig := second.hwConfig,
          error := second.error } := rfl
    _ = { first.declared with
          transceiver := second.transceiver, oper := second.oper,
          portAdmin := second.portAdmin, layers := second.layers,
          forwarding := second.forwarding, hwConfig := second.hwConfig,
          error := second.error } := by rw [same]

theorem Settlement.arbitrated_leaves {gate : Bool} {derived interface : Interface}
    (outcome : interface = arbitrated (.standard gate) derived) :
    interface.layers = [Arbiter.standing gate interface] ∧
      interface.forwarding =
        Arbiter.stamp (Arbiter.standing gate interface) derived.forwarding := by
  subst outcome
  rw [arbitrated_standard]
  exact ⟨rfl, rfl⟩

/-- Two current interfaces of one declaration, with the same ports around them, can
differ in their layers and forwarding columns only. -/
theorem Registry.interface_eq_of_current {left right : Registry}
    (declared : left.declared? = right.declared?) (ports : left.ports = right.ports)
    {name : String} {first second : Interface}
    (firstFound : left.interface? name = some first)
    (secondFound : right.interface? name = some second)
    (firstCurrent : left.Current name) (secondCurrent : right.Current name)
    (firstClaimed : Work.Claimed left) (secondClaimed : Work.Claimed right) :
    second = { first with
      layers := second.layers, forwarding := second.forwarding } := by
  have same : first.declared = second.declared := by
    have here := congrFun declared name
    unfold declared? at here
    rw [firstFound, secondFound] at here
    exact Option.some.inj here
  have shape := Interface.eq_of_declared same
  obtain ⟨firstDue, firstOper, firstConfig, firstError⟩ := firstCurrent first firstFound
  obtain ⟨secondDue, secondOper, secondConfig, secondError⟩ :=
    secondCurrent second secondFound
  -- Field by field, since each derived field reads those settled before it.
  have transceiver : second.transceiver = first.transceiver := by
    have due : right.transceiverDue second = right.transceiverDue first := by
      rw [shape]
      rfl
    rw [secondDue, due, firstDue, transceiverDue_congr declared first]
  have portAdmin : second.portAdmin = first.portAdmin := by
    rw [firstClaimed name first firstFound, secondClaimed name second secondFound,
      inheritedAdmin_congr ports name]
  rw [transceiver, portAdmin] at shape
  have oper : second.oper = first.oper := by
    have derives (split : Option LaneSplit) : second.derive split = first.derive split := by
      rw [shape]
      rfl
    rw [secondOper, derives, firstOper, laneSplitAbove?_congr declared name]
  rw [oper] at shape
  have hwConfig : second.hwConfig = first.hwConfig := by
    have columns : second.hwColumns = first.hwColumns := by
      rw [shape]
      rfl
    rw [secondConfig, columns, firstConfig]
  have error : second.error = first.error := by
    have column : second.errorColumn = first.errorColumn := by
      rw [shape]
      rfl
    rw [secondError, column, firstError]
  rw [hwConfig, error] at shape
  exact shape

end LinkReconciler
