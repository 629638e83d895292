import LinkReconciler.Proofs.BatchInvariant
import LinkReconciler.Proofs.LaneExclusion

/-!
Permission to forward. After every reconciliation the forwarding column of an interface
permits forwarding exactly while the interface is in service, its bond is absent or up,
and the hardware is ready where the gate asks for it. A transaction that takes an
interface out of service withdraws the permission along with it.
-/

namespace LinkReconciler

namespace Interface

/-- Whether the interface may forward traffic, under a chain with or without the gate. -/
def Permitted (gate : Bool) (interface : Interface) : Prop :=
  interface.oper.enabled = true ∧
    (interface.bondState = none ∨ interface.bondState = some "up") ∧
    (gate = false ∨ interface.hwReady = true)

theorem Derived.enable {interface : Interface} {parentSplit : Option LaneSplit}
    (derived : interface.Derived parentSplit) :
    interface.hwConfig.get? "enable" = some (flagText interface.oper.enabled) := by
  rw [derived.2.1, hwColumns_enable]

end Interface

theorem Protocol.lacp_forwards_iff (interface : Interface) :
    Protocol.lacp.signal interface = .forward ↔
      interface.bondState = none ∨ interface.bondState = some "up" := by
  cases bond : interface.bondState with
  | none => simp [lacp, bond]
  | some state => by_cases isUp : state = "up" <;> simp [lacp, bond, isUp]

namespace Arbiter

theorem holdsBack_eq_false_iff (gate : Bool) (interface : Interface) :
    (standard gate).holdsBack interface = false ↔
      interface.oper.enabled = true ∧ (gate = false ∨ interface.hwReady = true) := by
  cases gate <;> simp [holdsBack, standard]

theorem standing_open_iff (gate : Bool) (interface : Interface) :
    (standing gate interface).blocked = false ↔ interface.Permitted gate := by
  have back := holdsBack_eq_false_iff gate interface
  have bond := Protocol.lacp_forwards_iff interface
  unfold standing Interface.Permitted
  cases held : (standard gate).holdsBack interface with
  | true =>
      rw [held] at back
      simp only [if_true, LayerState.blockedUnowned, Bool.true_eq_false, false_iff]
      rintro ⟨serves, _, ready⟩
      cases back.mpr ⟨serves, ready⟩
  | false =>
      obtain ⟨serves, ready⟩ := back.mp held
      cases asked : Protocol.lacp.signal interface with
      | forward =>
          simpa [LayerState.clear, serves, ready] using bond.mp asked
      | block =>
          rw [asked] at bond
          simp only [Bool.false_eq_true, if_false, LayerState.blockedBy, Bool.true_eq_false,
            false_iff]
          rintro ⟨_, isUp, _⟩
          cases bond.mpr isUp

theorem forwarding_stamp (state : LayerState) (column : ColumnMap) :
    (stamp state column).get? "forwarding" =
      some (if state.blocked then "false" else "true") :=
  Dict.get?_insert_self _ _ _

theorem forwarding_arbitrated (gate : Bool) (interface : Interface) :
    ((Settlement.arbitrated (.standard gate) interface).forwarding.get? "forwarding" =
        some "true" ↔ interface.Permitted gate) ∧
      (¬ interface.Permitted gate →
        (Settlement.arbitrated (.standard gate) interface).forwarding.get? "forwarding" =
          some "false") := by
  rw [← standing_open_iff, Settlement.arbitrated_standard]
  dsimp only
  rw [forwarding_stamp]
  cases (standing gate interface).blocked <;> simp

end Arbiter

namespace Manager

open Work

/-- The settlement of a batch as the arbitration finds it. -/
def unarbitrated (manager : Manager) (batch : Batch) : Settlement :=
  (manager.absorb batch).dirty.keys.foldl Settlement.derive
    ⟨(manager.absorb batch).registry, ∅⟩

theorem interface?_unarbitrated (manager : Manager) (batch : Batch) (name : String) :
    (manager.unarbitrated batch).registry.interface? name =
      ((manager.absorb batch).registry.interface? name).map
        ((manager.absorb batch).refreshed name) :=
  (derivations_spec (manager.absorb batch)).1 name

theorem reconcile_permits (manager : Manager) (batch : Batch) {name : String}
    {interface : Interface}
    (found : (manager.reconcile batch ∅).1.registry.interface? name = some interface) :
    (interface.forwarding.get? "forwarding" = some "true" ↔
        interface.Permitted manager.config.arbiter.requireHwReady) ∧
      (¬ interface.Permitted manager.config.arbiter.requireHwReady →
        interface.forwarding.get? "forwarding" = some "false") := by
  rw [reconcile_registry, interface?_settle] at found
  obtain ⟨previous, _, rfl⟩ := Option.map_eq_some_iff.mp found
  -- Arbitration changes nothing that the permission depends on.
  exact Arbiter.forwarding_arbitrated manager.config.arbiter.requireHwReady
    ((manager.absorb batch).refreshed name previous)

theorem reconcile_withdraws {manager : Manager} (upheld : manager.Upheld) (batch : Batch)
    {name : String} {before interface : Interface}
    (unarbitrated : (manager.unarbitrated batch).registry.interface? name = some before)
    (forwarded : before.forwarding.get? "forwarding" = some "true")
    (found : (manager.reconcile batch ∅).1.registry.interface? name = some interface)
    {hwConfig : ColumnMap}
    (switched : ((manager.reconcile batch ∅).2.under name).hwConfig = some hwConfig)
    (off : hwConfig.get? "enable" = some "false") :
    ∃ forwarding, ((manager.reconcile batch ∅).2.under name).forwarding = some forwarding ∧
      forwarding.get? "forwarding" = some "false" := by
  obtain ⟨previous, was, _, under⟩ := reconcile_interface upheld batch found
  obtain ⟨parentSplit, derived⟩ := (reconcile_upheld upheld batch).derived name interface found
  have column : before.forwarding = previous.forwarding := by
    rw [interface?_unarbitrated, was, Option.map_some, Option.some.injEq] at unarbitrated
    rw [← unarbitrated]
    exact (refreshed_frame (manager.absorb batch) name previous).2
  rw [under] at switched ⊢
  -- What is written is what the interface comes out with.
  have final : interface.hwConfig = hwConfig :=
    ((RowUpdate.hwConfig_between_eq_some_iff previous interface hwConfig).mp switched).1
  have withdrawn : interface.forwarding.get? "forwarding" = some "false" := by
    refine (reconcile_permits manager batch found).2 fun permitted => ?_
    have enable := derived.enable
    rw [permitted.1, final, off] at enable
    exact absurd enable (by decide)
  refine ⟨interface.forwarding, ?_, withdrawn⟩
  rw [RowUpdate.forwarding_between_eq_some_iff]
  refine ⟨rfl, fun kept => ?_⟩
  rw [column, kept, withdrawn] at forwarded
  exact absurd forwarded (by decide)

/-- After every batch, whatever the batches hold, forwarding is permitted exactly when
it should be. It is permitted only where the hardware is switched on, and a transaction
that switches off an interface found forwarding withdraws the permission too. -/
theorem forwarding_when_permitted (config : Config) (earlier : List Batch) (batch : Batch)
    {name : String} {interface : Interface}
    (found : (((ofConfig config).absorbed earlier).reconcile batch ∅).1.registry.interface?
      name = some interface) :
    let manager := (ofConfig config).absorbed earlier
    let written := (manager.reconcile batch ∅).2.under name
    (interface.forwarding.get? "forwarding" = some "true" ↔
        interface.Permitted config.arbiter.requireHwReady) ∧
      (¬ interface.Permitted config.arbiter.requireHwReady →
        interface.forwarding.get? "forwarding" = some "false") ∧
      (interface.forwarding.get? "forwarding" = some "true" →
        interface.hwConfig.get? "enable" = some "true") ∧
      ∀ before, (manager.unarbitrated batch).registry.interface? name = some before →
        before.forwarding.get? "forwarding" = some "true" →
        ∀ hwConfig, written.hwConfig = some hwConfig →
        hwConfig.get? "enable" = some "false" →
        ∃ forwarding, written.forwarding = some forwarding ∧
          forwarding.get? "forwarding" = some "false" := by
  intro manager written
  have upheld : manager.Upheld := absorbed_upheld config earlier
  obtain ⟨parentSplit, derived⟩ := (reconcile_upheld upheld batch).derived name interface found
  obtain ⟨permits, forbids⟩ := reconcile_permits manager batch found
  rw [show manager.config = config from config_absorbed (ofConfig config) earlier]
    at permits forbids
  refine ⟨permits, forbids, fun forwards => ?_, ?_⟩
  · rw [derived.enable, (permits.mp forwards).1]
    rfl
  · intro before unarbitrated forwarded hwConfig switched off
    exact reconcile_withdraws upheld batch unarbitrated forwarded found switched off

def gated : Config where
  arbiter := { requireHwReady := true }

def opening : Batch where
  interfaces := [.ofRow
    { name := "lo"
      kind := "loopback"
      userConfig := .ofList [("admin", "up")]
      hwStatus := .ofList [("ready", "true")] }]
  ports := [.ofRow { name := "p", interfaces := ["lo"] }]

/-- The port goes; the row of the interface is not delivered again. -/
def closing : Batch where
  ports := [.del "p"]

theorem closing_withdraws :
    let manager := (ofConfig gated).absorbed [opening]
    ∃ before interface forwarding,
      (manager.unarbitrated closing).registry.interface? "lo" = some before ∧
      before.forwarding.get? "forwarding" = some "true" ∧
      (manager.reconcile closing ∅).1.registry.interface? "lo" = some interface ∧
      ¬ interface.Permitted true ∧
      ((manager.reconcile closing ∅).2.under "lo").forwarding = some forwarding ∧
      forwarding.get? "forwarding" = some "false" := by
  intro manager
  obtain ⟨before, unarbitrated, forwarded⟩ := Option.map_eq_some_iff.mp
    (show ((manager.unarbitrated closing).registry.interface? "lo").map
      (·.forwarding.get? "forwarding") = some (some "true") by decide +kernel)
  obtain ⟨interface, found, shut⟩ := Option.map_eq_some_iff.mp
    (show ((manager.reconcile closing ∅).1.registry.interface? "lo").map
      (·.forwarding.get? "forwarding") = some (some "false") by decide +kernel)
  obtain ⟨hwConfig, switched, off⟩ := Option.map_eq_some_iff.mp
    (show ((manager.reconcile closing ∅).2.under "lo").hwConfig.map (·.get? "enable") =
      some (some "false") by decide +kernel)
  obtain ⟨permits, _, _, withdraws⟩ := forwarding_when_permitted gated [opening] closing found
  obtain ⟨forwarding, written, closed⟩ :=
    withdraws before unarbitrated forwarded hwConfig switched off
  refine ⟨before, interface, forwarding, unarbitrated, forwarded, found, ?_, written, closed⟩
  intro permitted
  exact absurd ((permits.mpr permitted).symm.trans shut) (by decide)

end Manager

end LinkReconciler
