import LinkReconciler.Manager.Reconcile
import LinkReconciler.Proofs.LayerChain

/-!
The daemon's own chain forgets. Its one layer ends up in a state that depends only
on the interface as it is now, whatever state the layer was in before, and the
forwarding column it writes is a fixed point of writing it again.
-/

namespace LinkReconciler

namespace Arbiter

def standing (gate : Bool) (interface : Interface) : LayerState :=
  if (standard gate).holdsBack interface then .blockedUnowned
  else
    match Protocol.lacp.signal interface with
    | .block => .blockedBy .lacp
    | .forward => .clear

theorem standings_standard (gate : Bool) (interface : Interface) :
    (standard gate).standings (withoutLayers interface) false (standard gate).layers =
      [standing gate interface] := by
  have verdict : Layer.verdict (withoutLayers interface) ⟨.aggregation, [.lacp]⟩ =
      match Protocol.lacp.signal interface with
      | .block => .blockedBy .lacp
      | .forward => .clear := by
    have seen : Protocol.lacp.signal (withoutLayers interface) =
        Protocol.lacp.signal interface := rfl
    unfold Layer.verdict
    rw [List.find?_singleton, seen]
    cases Protocol.lacp.signal interface <;> rfl
  unfold standing
  rw [← verdict]
  rfl

theorem standard_arbitrate (gate : Bool) (interface : Interface) :
    (standard gate).arbitrate interface =
      ([standing gate interface], stamp (standing gate interface) interface.forwarding) := by
  rw [arbitrate_eq, standings_standard]
  rfl

theorem stamp_stamp (state earlier : LayerState) (column : ColumnMap) :
    stamp state (stamp earlier column) = stamp state column := by
  ext key : 1
  simp only [get?_stamp]
  grind

end Arbiter

namespace Settlement

open Arbiter

theorem arbitrated_standard (gate : Bool) (interface : Interface) :
    arbitrated (.standard gate) interface =
      { interface with
        layers := [standing gate interface]
        forwarding := stamp (standing gate interface) interface.forwarding } := by
  unfold arbitrated
  rw [standard_arbitrate]

theorem arbitrated_forgets (gate : Bool) (interface : Interface)
    (layers : List LayerState) :
    arbitrated (.standard gate) { interface with layers } =
      arbitrated (.standard gate) interface := by
  rw [arbitrated_standard, arbitrated_standard]
  rfl

theorem arbitrated_arbitrated (gate : Bool) (interface : Interface) :
    arbitrated (.standard gate) (arbitrated (.standard gate) interface) =
      arbitrated (.standard gate) interface := by
  have kept : standing gate (arbitrated (.standard gate) interface) =
      standing gate interface := rfl
  rw [arbitrated_standard gate (arbitrated _ interface), kept, arbitrated_standard]
  simp only [stamp_stamp]

/-- Two interfaces that differ in their layers only come out of arbitration alike;
that they do so elsewhere may be known of the outcome alone. -/
theorem arbitrated_eq_of_alike {gate : Bool} {first second : Interface}
    {layers : List LayerState} {column : ColumnMap}
    (alike : arbitrated (.standard gate) second =
      { first with layers := layers, forwarding := column })
    (forwarding : second.forwarding = first.forwarding) :
    arbitrated (.standard gate) second = arbitrated (.standard gate) first := by
  have before : second = { first with layers := second.layers } := by
    calc second
        = { arbitrated (.standard gate) second with
            layers := second.layers, forwarding := second.forwarding } := by
          rw [arbitrated_standard]
      _ = { first with layers := second.layers } := by rw [alike, forwarding]
  rw [before, arbitrated_forgets]

end Settlement

end LinkReconciler
