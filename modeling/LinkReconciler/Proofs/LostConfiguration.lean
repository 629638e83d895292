import LinkReconciler.Proofs.LaneExclusion
import LinkReconciler.Proofs.StoreMirror

/-!
Lost hardware configurations. A refused commit is not repeated: the registry goes on
from what it meant to write, and the store keeps what it had. The two differ in the
hardware configuration of an interface exactly as long as the last write of it was
lost; and only such a difference can leave the lanes of a split driven twice.
-/

namespace LinkReconciler

namespace Round

instance (round : Round) (name : String) : Decidable (round.Delivers name) :=
  inferInstanceAs (Decidable (∃ change ∈ round.changes, change.key = name))

def config? (round : Round) (name : String) : Option ColumnMap :=
  (round.transaction.under name).hwConfig

end Round

/-- What is lost of an interface's hardware configuration after one more round. A write
that goes through repairs it, and so does taking in the row again. -/
def lostAfter (name : String) (lost : Option ColumnMap) (round : Round) :
    Option ColumnMap :=
  match round.config? name with
  | some config => if round.refused then some config else none
  | none => if round.Delivers name then none else lost

def lostConfig? (rounds : List Round) (name : String) : Option ColumnMap :=
  rounds.foldl (lostAfter name) none

def SwitchOffLost (rounds : List Round) (name : String) : Prop :=
  ∃ config, lostConfig? rounds name = some config ∧ config.get? "enable" = some "false"

theorem lostConfig?_snoc (rounds : List Round) (last : Round) (name : String) :
    lostConfig? (rounds ++ [last]) name = lostAfter name (lostConfig? rounds name) last := by
  unfold lostConfig?
  rw [List.foldl_append]
  rfl

theorem RowUpdate.hwConfig_apply (update : RowUpdate) :
    InterfaceRow.hwConfig ∘ update.apply =
      match update.hwConfig with
      | some config => fun _ => config
      | none => InterfaceRow.hwConfig := by
  funext row
  obtain ⟨error, hwConfig, forwarding⟩ := update
  cases hwConfig <;> rfl

/-! ## One table -/

open ChangeQueue in
/-- Image and table agree on the hardware configuration where none is lost or a change
of the row is on its way; a lost one stands in the image. -/
structure ConfigFollows (lost : String → Option ColumnMap)
    (image table : Dict InterfaceRow) (older newer : ChangeQueue InterfaceRow) : Prop where
  reaches : ReachesBut InterfaceRow.hwConfig
    (fun name => lost name ≠ none ∧ ¬ Change.Touches (combined older newer) name)
    image table (combined older newer)
  keeps : ∀ name config row, lost name = some config → image.get? name = some row →
    row.hwConfig = config

namespace ConfigFollows

variable {lost : String → Option ColumnMap} {spoiled : String → Prop}
  {image table : Dict InterfaceRow} {older newer : ChangeQueue InterfaceRow}

theorem fed (config : ConfigFollows lost image table older newer)
    (follows : FollowsBut spoiled image table older newer)
    {after : Dict InterfaceRow} {queued : ChangeQueue InterfaceRow}
    (fed : Fed table newer after queued) : ConfigFollows lost image after older queued := by
  cases fed with
  | kept => exact config
  | changed change proper =>
      have touches := ChangeQueue.touches_combined_push follows.olderSound
        follows.newerSound proper
      refine ⟨?_, config.keeps⟩
      apply (config.reaches.changed follows.olderSound follows.newerSound proper).mono
      rintro name ⟨⟨loses, untouched⟩, other⟩
      exact ⟨loses, fun touched => ((touches name).mp touched).elim other untouched⟩

theorem taken (config : ConfigFollows lost image table older newer) :
    ConfigFollows lost image table (older.pushAll newer.drained) ∅ :=
  ⟨config.reaches, config.keeps⟩

section Written
variable {round : Round} (changes : round.changes = ChangeQueue.combined older newer)
include changes

theorem written_reaches (config : ConfigFollows lost image table older newer)
    (follows : FollowsBut spoiled image table older newer) :
    ReachesBut InterfaceRow.hwConfig (fun name => lostAfter name (lost name) round ≠ none)
      (Store.applyUpdates (Change.applyAll image round.changes) round.transaction)
      (if round.refused then table else Store.applyUpdates table round.transaction) [] := by
  intro name unexcepted
  have found : lostAfter name (lost name) round = none := Decidable.not_not.mp unexcepted
  show (Dict.get? (Store.applyUpdates _ round.transaction) name).map _ = _
  rw [Store.get?_applyUpdates, Option.map_map, RowUpdate.hwConfig_apply]
  unfold lostAfter Round.config? at found
  cases writes : (round.transaction.under name).hwConfig with
  | some value =>
      simp only [writes, ite_eq_right_iff, reduceCtorEq, imp_false] at found
      rw [if_neg found, Store.get?_applyUpdates, Option.map_map, RowUpdate.hwConfig_apply,
        writes, changes]
      -- The same value stands in both rows, and there are both or none of them.
      have present := congrArg (Option.map fun _ => value) (follows.clients name)
      rwa [Option.map_map, Option.map_map] at present
  | none =>
      simp only [writes] at found
      have agrees : ((Change.applyAll image round.changes).get? name).map
          InterfaceRow.hwConfig = (table.get? name).map InterfaceRow.hwConfig := by
        rw [changes]
        apply config.reaches name
        rintro ⟨loses, untouched⟩
        rw [← changes] at untouched
        rw [if_neg (show ¬ round.Delivers name from untouched)] at found
        exact loses found
      simp only [agrees]
      split
      · rfl
      · rw [Store.get?_applyUpdates, Option.map_map, RowUpdate.hwConfig_apply, writes]

omit changes in
theorem written_keeps (config : ConfigFollows lost image table older newer)
    {name : String} {value : ColumnMap} {row : InterfaceRow}
    (found : lostAfter name (lost name) round = some value)
    (stored : (Store.applyUpdates (Change.applyAll image round.changes)
      round.transaction).get? name = some row) : row.hwConfig = value := by
  rw [Store.get?_applyUpdates] at stored
  obtain ⟨old, was, rfl⟩ := Option.map_eq_some_iff.mp stored
  have here := congrFun (RowUpdate.hwConfig_apply (round.transaction.under name)) old
  rw [Function.comp_apply] at here
  rw [here]
  unfold lostAfter Round.config? at found
  cases writes : (round.transaction.under name).hwConfig with
  | some config =>
      simp only [writes] at found
      split at found
      · exact Option.some.inj found
      · cases found
  | none =>
      simp only [writes] at found
      split at found
      · cases found
      next undelivered =>
        refine config.keeps name value old found ?_
        rw [← was]
        exact (Change.get?_applyAll_of_untouched undelivered image).symm

theorem written (config : ConfigFollows lost image table older newer)
    (follows : FollowsBut spoiled image table older newer) :
    ConfigFollows (fun name => lostAfter name (lost name) round)
      (Store.applyUpdates (Change.applyAll image round.changes) round.transaction)
      (if round.refused then table else Store.applyUpdates table round.transaction)
      ∅ ∅ where
  reaches := (config.written_reaches changes follows).mono
    fun name loses => ⟨loses, Change.not_touches_nil name⟩
  keeps _ _ _ := config.written_keeps

end Written

end ConfigFollows

/-! ## Whole runs -/

namespace Session

structure LanesFollowed (session : Session) (past : List Round)
    (image : Dict InterfaceRow) (ports : Dict PortRow)
    (subsystems : Dict SubsystemRow) : Prop where
  consistent : session.Consistent (fun name => Spoiled name past) image ports subsystems
  config : ConfigFollows (lostConfig? past) image session.store.interfaces
    session.manager.deferred.interfaces session.store.pending.interfaces
  kept : session.manager.registry.LanesKept

namespace LanesFollowed

variable {session : Session} {past : List Round} {image : Dict InterfaceRow}
  {ports : Dict PortRow} {subsystems : Dict SubsystemRow}

theorem act (followed : session.LanesFollowed past image ports subsystems)
    {action : ClientAction} (keeps : (Step.act action).KeepsNames) :
    (session.act action).2.LanesFollowed past image ports subsystems := by
  have manager := manager_act session action
  refine ⟨followed.consistent.act keeps, ?_, ?_⟩
  · rw [manager]
    exact followed.config.fed followed.consistent.interfaces
      (act_acted followed.consistent.interfacesKeyed keeps).interfaces
  · rw [manager]
    exact followed.kept

theorem waited (followed : session.LanesFollowed past image ports subsystems) :
    session.waited.LanesFollowed past image ports subsystems :=
  ⟨followed.consistent.waited, followed.config.taken, followed.kept⟩

theorem reconciled (followed : session.LanesFollowed past image ports subsystems)
    (passed : session.Reconciled) :
    session.pass.2.LanesFollowed (past ++ [session.round])
      (Store.applyUpdates (Change.applyAll image session.outstanding.interfaces)
        session.reconciliation.2)
      session.store.ports session.store.subsystems := by
  refine ⟨followed.consistent.reconciled_snoc passed, ?_, ?_⟩
  · have changes : session.round.changes = ChangeQueue.combined
        session.manager.deferred.interfaces session.store.pending.interfaces := rfl
    have transaction : session.round.transaction = session.reconciliation.2 := by
      simp only [round]
    have written := followed.config.written changes followed.consistent.interfaces
    rw [transaction] at written
    have lost : lostConfig? (past ++ [session.round]) =
        fun name => lostAfter name (lostConfig? past name) session.round :=
      funext (lostConfig?_snoc past session.round)
    have stored : session.pass.2.store.interfaces =
        if session.round.refused then session.store.interfaces
        else Store.applyUpdates session.store.interfaces session.reconciliation.2 := by
      rw [passed.interfaces]
      unfold round
      simp only [decide_eq_true_iff]
    rw [lost, stored, passed.deferred, passed.pending]
    exact written
  · rw [passed.manager]
    exact Manager.reconcile_lanesKept followed.consistent.readied_tracks
      followed.consistent.outstanding_wellFormed followed.kept

end LanesFollowed

theorem lanesFollowed_of_run (config : Config) {steps : List Step}
    (keeps : ∀ step ∈ steps, step.KeepsNames) :
    ∃ image ports subsystems, ((start config).after steps).LanesFollowed
      ((start config).rounds steps) image ports subsystems := by
  refine run_induction (motive := fun session past =>
    ∃ image ports subsystems, session.LanesFollowed past image ports subsystems)
    ?_ ?_ ?_ ⟨∅, ∅, ∅, ?_⟩ keeps
  · rintro session past action keepsHere ⟨_, _, _, followed⟩
    exact ⟨_, _, _, followed.act keepsHere⟩
  · rintro session past ⟨_, _, _, followed⟩
    exact ⟨_, _, _, followed.waited⟩
  · rintro session past passed ⟨_, _, _, followed⟩
    exact ⟨_, _, _, followed.reconciled passed⟩
  · exact ⟨start_consistent_nil config, ⟨fun _ _ => rfl, fun _ _ _ absent => nomatch absent⟩,
      Manager.ofConfig_lanesKept config⟩

/-! ## What can be driven twice -/

/-- A stored physical parent and a stored physical child that are linked both ways are
both switched on in their hardware configurations. -/
def DrivesTwice (session : Session) (parent child : String) : Prop :=
  parent ≠ child ∧
    ∃ upper ∈ session.store.interfaces.get? parent,
      ∃ lower ∈ session.store.interfaces.get? child,
        InterfaceKind.ofColumn upper.kind = .system ∧
          InterfaceKind.ofColumn lower.kind = .system ∧
          lower.splitParent = some parent ∧ child ∈ upper.splitChildren ∧
          upper.hwConfig.get? "enable" = some "true" ∧
          lower.hwConfig.get? "enable" = some "true"

instance (session : Session) (parent child : String) :
    Decidable (session.DrivesTwice parent child) :=
  inferInstanceAs (Decidable (_ ∧ _))

namespace LanesFollowed

variable {session : Session} {past : List Round} {image : Dict InterfaceRow}
  {ports : Dict PortRow} {subsystems : Dict SubsystemRow}
  (followed : session.LanesFollowed past image ports subsystems)
  (deferred : session.manager.deferred = {}) (pending : session.store.pending = {})
  {name : String} {row : InterfaceRow}
  (stored : session.store.interfaces.get? name = some row)
include followed deferred pending stored

theorem registered :
    ∃ interface, session.manager.registry.interface? name = some interface ∧
      interface.declared = (Interface.ofRow row session.manager.maxMtu).declared := by
  have declared := followed.consistent.declared? deferred pending name
  rw [stored, Option.map_some] at declared
  exact Option.map_eq_some_iff.mp declared

theorem hwConfig_of_row {interface : Interface}
    (found : session.manager.registry.interface? name = some interface) :
    lostConfig? past name = some interface.hwConfig ∨ interface.hwConfig = row.hwConfig := by
  obtain ⟨known, present, recorded⟩ :=
    followed.consistent.tracks.records.row_of_interface found
  have column : interface.hwConfig = known.hwConfig :=
    congrArg (fun part : Interface => part.hwConfig) recorded
  cases lost : lostConfig? past name with
  | some config =>
      left
      rw [column, followed.config.keeps name config known lost present]
  | none =>
      right
      have reaches := followed.config.reaches name fun loses => loses.1 lost
      rw [deferred, pending] at reaches
      have agrees : (image.get? name).map InterfaceRow.hwConfig =
          (session.store.interfaces.get? name).map InterfaceRow.hwConfig := reaches
      rw [present, stored] at agrees
      exact column.trans (Option.some.inj agrees)

theorem switchOffLost {interface : Interface}
    (found : session.manager.registry.interface? name = some interface)
    (on : row.hwConfig.get? "enable" = some "true")
    (out : interface.hwConfig.get? "enable" ≠ some "true") : SwitchOffLost past name := by
  obtain ⟨parentSplit, derived⟩ := followed.kept.derived name interface found
  rcases followed.hwConfig_of_row deferred pending stored found with lost | same
  · refine ⟨interface.hwConfig, lost, ?_⟩
    rw [derived.2.1, Interface.hwColumns_enable] at out ⊢
    cases enabled : interface.oper.enabled with
    | true => exact absurd (congrArg (fun flag => some (Interface.flagText flag)) enabled) out
    | false => rfl
  · rw [same] at out
    exact absurd on out

end LanesFollowed

/-- After any run from an empty store, whatever commits were refused, a pass that
reconciled leaves no lanes driven twice in the store, unless a write that was to
switch one of the two interfaces off was lost and not made good since. -/
theorem stored_lanes_driven_once (config : Config) (steps : List Step)
    (keeps : ∀ step ∈ steps, step.KeepsNames)
    (reconciles : ((start config).after steps).pass.1.reconciled = true)
    (parent child : String)
    (upperKept : ¬ SwitchOffLost ((start config).rounds (steps ++ [.pass])) parent)
    (lowerKept : ¬ SwitchOffLost ((start config).rounds (steps ++ [.pass])) child) :
    ¬ ((start config).after steps).pass.2.DrivesTwice parent child := by
  rw [rounds_snoc_pass _ _ reconciles] at upperKept lowerKept
  rintro ⟨differs, upperRow, upperStored, lowerRow, lowerStored, systemParent, systemChild,
    names, lists, upperOn, lowerOn⟩
  have passed := (reconciled_iff _).mp reconciles
  obtain ⟨image, ports, subsystems, before⟩ := lanesFollowed_of_run config keeps
  have followed := before.reconciled passed
  obtain ⟨upper, parentFound, upperDeclared⟩ :=
    followed.registered passed.deferred passed.pending upperStored
  obtain ⟨lower, childFound, lowerDeclared⟩ :=
    followed.registered passed.deferred passed.pending lowerStored
  have upperShows {α : Type} (field : Interface → α) := congrArg field upperDeclared
  have lowerShows {α : Type} (field : Interface → α) := congrArg field lowerDeclared
  have paired : ((start config).after steps).pass.2.manager.registry.Paired parent child := by
    refine ⟨differs, ?_, ?_⟩
    · exact (Registry.pointsTo_iff childFound parent).mpr
        ((lowerShows (·.splitParent)).trans names)
    · rw [Registry.childrenOf_of_found parentFound,
        show upper.splitChildren = upperRow.splitChildren from upperShows (·.splitChildren)]
      exact lists
  have apart := followed.kept.not_both_driven paired parentFound childFound
    ((upperShows (·.kind)).trans systemParent) ((lowerShows (·.kind)).trans systemChild)
  by_cases upperDriven : upper.hwConfig.get? "enable" = some "true"
  · exact lowerKept (followed.switchOffLost passed.deferred passed.pending lowerStored
      childFound lowerOn fun lowerDriven => apart ⟨upperDriven, lowerDriven⟩)
  · exact upperKept (followed.switchOffLost passed.deferred passed.pending upperStored
      parentFound upperOn upperDriven)

/-- The lanes are handed over, but the commit that was to switch parent and child is
refused; then the rows of the given names are delivered again. -/
def refusedHandover (again : List String) : List Step :=
  [.act (.setGeneration 1), .act (.putInterface (Manager.splittable "no-split")),
    .act (.putInterface Manager.lane), .act (.putPort Manager.lanePort), .pass,
    .act (.refuseNextCommit "transaction conflict"),
    .act (.reviseInterface "49" fun row =>
      { row with userConfig := row.userConfig.insert "lane_split" "split" }), .pass] ++
  again.map fun name => .act (.reviseInterface name id)

theorem refusedHandover_keepsNames (again : List String) :
    ∀ step ∈ refusedHandover again, step.KeepsNames := by
  simp [refusedHandover, Step.KeepsNames]

theorem refusedHandover_repaired :
    ((start {}).after (refusedHandover ["49", "49-1"])).pass.1 = .committed 2 ∧
      ¬ ((start {}).after (refusedHandover ["49", "49-1"])).pass.2.DrivesTwice "49" "49-1" := by
  have committed : ((start {}).after (refusedHandover ["49", "49-1"])).pass.1 =
      .committed 2 := by decide +kernel
  have repaired : ∀ name ∈ ["49", "49-1"], lostConfig? ((start {}).rounds
      (refusedHandover ["49", "49-1"] ++ [.pass])) name = none := by decide +kernel
  have kept (name : String) (member : name ∈ ["49", "49-1"]) :
      ¬ SwitchOffLost ((start {}).rounds
        (refusedHandover ["49", "49-1"] ++ [.pass])) name := by
    rintro ⟨config, lost, _⟩
    rw [repaired name member] at lost
    cases lost
  exact ⟨committed, stored_lanes_driven_once {} (refusedHandover ["49", "49-1"])
    (refusedHandover_keepsNames _) (by rw [committed]; rfl) "49" "49-1"
    (kept "49" (by simp)) (kept "49-1" (by simp))⟩

/-- If only the child is delivered again, it is switched on while the parent's row
still says that the parent is. -/
theorem refusedHandover_drivenTwice :
    (∀ step ∈ refusedHandover ["49-1"], step.KeepsNames) ∧
      ((start {}).after (refusedHandover ["49-1"])).pass.1 = .committed 1 ∧
      ((start {}).after (refusedHandover ["49-1"])).pass.2.DrivesTwice "49" "49-1" :=
  ⟨refusedHandover_keepsNames _, by decide +kernel, by decide +kernel⟩

end Session

end LinkReconciler
