import LinkReconciler.Proofs.ColumnBaseline
import LinkReconciler.Proofs.ForwardingPermit

/-!
What a reconciliation writes. Whatever batches came before, a batch writes a column of an
interface exactly where the column comes out different from what is known to be stored.
What comes out are the columns of the state that the interface is in, and nothing is
written under a name that is not registered any more.
-/

namespace LinkReconciler

/-- An update takes one state of the written columns to another: it holds a column
exactly where the two differ, with the later value. -/
structure RowUpdate.Takes (update : RowUpdate) (before after : WrittenColumns) : Prop where
  error : ∀ value, update.error = some value ↔ after.error = value ∧ before.error ≠ value
  hwConfig : ∀ value,
    update.hwConfig = some value ↔ after.hwConfig = value ∧ before.hwConfig ≠ value
  forwarding : ∀ value,
    update.forwarding = some value ↔ after.forwarding = value ∧ before.forwarding ≠ value

theorem RowUpdate.between_takes (before after : Interface) :
    (between before after).Takes before.columns after.columns where
  error := error_between_eq_some_iff before after
  hwConfig := hwConfig_between_eq_some_iff before after
  forwarding := forwarding_between_eq_some_iff before after

namespace Interface

theorem Derived.error_iff_off {interface : Interface} {parentSplit : Option LaneSplit}
    (derived : interface.Derived parentSplit) :
    (interface.error = none ↔ interface.hwConfig.get? "enable" = some "true") ∧
      (interface.hwConfig.get? "enable" ≠ some "true" →
        interface.error = some interface.oper.reason.word) := by
  rw [derived.enable, derived.2.2]
  unfold errorColumn
  cases interface.oper.enabled <;> simp [flagText]

end Interface

namespace Manager

open Work

theorem under_of_unregistered {manager : Manager} (upheld : manager.Upheld) (batch : Batch)
    {name : String}
    (absent : (manager.reconcile batch ∅).1.registry.interface? name = none) :
    (manager.reconcile batch ∅).2.under name = {} := by
  have readUnder := (absorb_upheld upheld batch).readUnder
  rw [reconcile_registry, interface?_settle] at absent
  rw [reconcile_transaction, under_settle _ _ fun name interface shown =>
    (readUnder name interface shown).1, Option.map_eq_none_iff.mp absent]

/-- After any batches on a new manager, a batch writes to the row of an interface how its
columns differ from the last row that the batch sets, or else from those registered
before. The columns are those of the state that the interface is in then. -/
theorem transaction_is_difference (config : Config) (batches : List Batch) (batch : Batch)
    (name : String) :
    let before := (ofConfig config).absorbed batches
    let outcome := before.reconcile batch ∅
    match outcome.1.registry.interface? name with
    | some interface =>
        (∃ baseline, before.baseline batch name = some baseline ∧
          (outcome.2.under name).Takes baseline interface.columns) ∧
        interface.hwConfig = interface.hwColumns ∧
        interface.error = interface.errorColumn ∧
        (interface.error = none ↔ interface.hwConfig.get? "enable" = some "true") ∧
        (interface.hwConfig.get? "enable" ≠ some "true" →
          interface.error = some interface.oper.reason.word)
    | none => outcome.2.get? name = none := by
  intro before outcome
  have upheld : before.Upheld := absorbed_upheld config batches
  cases found : outcome.1.registry.interface? name with
  | none =>
      have terse : outcome.2.Terse := settle_terse before.arbiter (before.absorb batch)
      have nothing : outcome.2.under name = {} := under_of_unregistered upheld batch found
      rw [terse.get?_eq, nothing]
      rfl
  | some interface =>
      obtain ⟨previous, was, _, written⟩ := reconcile_interface upheld batch found
      obtain ⟨parentSplit, derived⟩ :=
        (reconcile_upheld upheld batch).derived name interface found
      refine ⟨⟨previous.columns, baseline_of_absorbed was, ?_⟩, derived.2.1, derived.2.2,
        derived.error_iff_off⟩
      rw [show outcome.2.under name = .between previous interface from written]
      exact RowUpdate.between_takes previous interface

end Manager

end LinkReconciler
