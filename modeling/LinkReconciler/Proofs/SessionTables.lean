import LinkReconciler.Proofs.SessionRun

/-!
The tables of a session. What the registry tracks, with the changes on their way
applied to it, is what is stored: exactly for ports and subsystems, and for
interfaces up to the written columns of names whose writes were lost.
-/

namespace LinkReconciler

def InterfaceRow.clients (row : InterfaceRow) : InterfaceRow :=
  { row with error := none, hwConfig := ∅, forwarding := ∅ }

theorem RowUpdate.clients_apply (update : RowUpdate) :
    InterfaceRow.clients ∘ update.apply = InterfaceRow.clients := rfl

open ChangeQueue in
/-- As for other tables, but a spoiled row may differ in its written columns until
a change of it is on its way. -/
structure FollowsBut (spoiled : String → Prop) (image table : Dict InterfaceRow)
    (older newer : ChangeQueue InterfaceRow) : Prop where
  olderSound : older.Sound
  newerSound : newer.Sound
  clients : ∀ name,
    ((Change.applyAll image (combined older newer)).get? name).map InterfaceRow.clients =
      (table.get? name).map InterfaceRow.clients
  exact : ∀ name, Change.Touches (combined older newer) name ∨ ¬ spoiled name →
    (Change.applyAll image (combined older newer)).get? name = table.get? name

namespace FollowsBut

variable {spoiled : String → Prop} {image table : Dict InterfaceRow}
  {older newer : ChangeQueue InterfaceRow}

theorem fed (follows : FollowsBut spoiled image table older newer)
    {after : Dict InterfaceRow} {queued : ChangeQueue InterfaceRow}
    (fed : Fed table newer after queued) : FollowsBut spoiled image after older queued := by
  cases fed with
  | kept => exact follows
  | changed change proper =>
      have touches := ChangeQueue.touches_combined_push follows.olderSound
        follows.newerSound proper
      have clients : ReachesBut InterfaceRow.clients (fun _ => False) image table
          (ChangeQueue.combined older newer) := fun name _ => follows.clients name
      have exact : ReachesBut id
          (fun name => ¬ (Change.Touches (ChangeQueue.combined older newer) name ∨
            ¬ spoiled name))
          image table (ChangeQueue.combined older newer) := by
        intro name agrees
        rw [follows.exact name (Classical.not_not.mp agrees)]
      constructor
      · exact follows.olderSound
      · exact ChangeQueue.push_sound follows.newerSound proper
      · intro name
        exact clients.changed follows.olderSound follows.newerSound proper name (fun h => h.1)
      · intro name unspoiled
        have agrees := exact.changed follows.olderSound follows.newerSound proper name
        rw [Option.map_id] at agrees
        apply agrees
        rintro ⟨excepts, other⟩
        rw [touches] at unspoiled
        exact excepts (unspoiled.imp_left fun touched => touched.resolve_left other)

theorem taken (follows : FollowsBut spoiled image table older newer) :
    FollowsBut spoiled image table (older.pushAll newer.drained) ∅ :=
  ⟨ChangeQueue.pushAll_sound follows.olderSound
      (ChangeQueue.drained_wellFormed follows.newerSound).proper,
    ChangeQueue.empty_sound, follows.clients, follows.exact⟩

theorem written (follows : FollowsBut spoiled image table older newer)
    (transaction : Transaction) (refused : Prop) [Decidable refused] :
    FollowsBut
      (fun name => (refused ∧ (transaction.under name).isEmpty = false) ∨
        (spoiled name ∧ ¬ Change.Touches (ChangeQueue.combined older newer) name))
      (Store.applyUpdates
        (Change.applyAll image (ChangeQueue.combined older newer)) transaction)
      (if refused then table else Store.applyUpdates table transaction) ∅ ∅ := by
  constructor
  · exact ChangeQueue.empty_sound
  · exact ChangeQueue.empty_sound
  · intro name
    show (Dict.get? (Store.applyUpdates _ transaction) name).map _ = _
    rw [Store.get?_applyUpdates, Option.map_map, RowUpdate.clients_apply, follows.clients]
    by_cases fails : refused
    · rw [if_pos fails]
    · rw [if_neg fails, Store.get?_applyUpdates, Option.map_map, RowUpdate.clients_apply]
  · intro name unspoiled
    show Dict.get? (Store.applyUpdates _ transaction) name = _
    have clean := unspoiled.resolve_left (Change.not_touches_nil name)
    rw [not_or] at clean
    obtain ⟨delivered, agreed⟩ := clean
    -- A row that was delivered agrees again, even if it was spoiled before.
    have known : Change.Touches (ChangeQueue.combined older newer) name ∨ ¬ spoiled name := by
      by_cases touched : Change.Touches (ChangeQueue.combined older newer) name
      · exact Or.inl touched
      · exact Or.inr fun spoils => agreed ⟨spoils, touched⟩
    have same := follows.exact name known
    rw [Store.get?_applyUpdates, same]
    by_cases fails : refused
    · have nothing : (transaction.under name).isEmpty = true := by
        cases empty : (transaction.under name).isEmpty with
        | true => rfl
        | false => exact absurd ⟨fails, empty⟩ delivered
      have unchanged : (transaction.under name).apply = id :=
        funext (RowUpdate.apply_of_isEmpty nothing)
      rw [if_pos fails, unchanged, Option.map_id, id]
    · rw [if_neg fails, Store.get?_applyUpdates]

end FollowsBut

/-! ## Sessions -/

def ClientAction.change? (store : Store) : ClientAction → Option (Change InterfaceRow)
  | putInterface row => some (.ofRow row)
  | reviseInterface name change =>
      (store.interfaces.get? name).map fun row => .set name (change row)
  | deleteInterface name =>
      if store.interfaces.contains name then some (.del name) else none
  | _ => none

namespace Session

/-- The registry tracks images that the tables follow. -/
structure Consistent (session : Session) (spoiled : String → Prop)
    (image : Dict InterfaceRow) (portImage : Dict PortRow)
    (subsystemImage : Dict SubsystemRow) : Prop where
  tracks : session.manager.Tracks image portImage
  interfaces : FollowsBut spoiled image session.store.interfaces
    session.manager.deferred.interfaces session.store.pending.interfaces
  ports : Follows portImage session.store.ports
    session.manager.deferred.ports session.store.pending.ports
  subsystems : Follows subsystemImage session.store.subsystems
    session.manager.deferred.subsystems session.store.pending.subsystems
  interfacesKeyed : Keyed session.store.interfaces
  portsKeyed : Keyed session.store.ports
  subsystemsKeyed : Keyed session.store.subsystems
  olderPuts : session.manager.deferred.subsystems.Puts
  newerPuts : session.store.pending.subsystems.Puts
  limit : session.manager.maxMtu =
    Absorption.limitUnder session.manager.config.system.subsystem subsystemImage

theorem empty_keyed {ρ : Type} [Named ρ] : Keyed (∅ : Dict ρ) :=
  fun _ _ absent => nomatch absent

theorem start_consistent (config : Config) :
    (start config).Consistent (fun _ => False) ∅ ∅ ∅ where
  tracks := Manager.ofConfig_tracks config
  interfaces := ⟨ChangeQueue.empty_sound, ChangeQueue.empty_sound, fun _ => rfl, fun _ _ => rfl⟩
  ports := Follows.refl ∅
  subsystems := Follows.refl ∅
  interfacesKeyed := empty_keyed
  portsKeyed := empty_keyed
  subsystemsKeyed := empty_keyed
  olderPuts := fun _ _ absent => nomatch absent
  newerPuts := fun _ _ absent => nomatch absent
  limit := rfl

structure Acted (before after : Store) : Prop where
  interfaces : Fed before.interfaces before.pending.interfaces
    after.interfaces after.pending.interfaces
  ports : Fed before.ports before.pending.ports after.ports after.pending.ports
  subsystems : Fed before.subsystems before.pending.subsystems
    after.subsystems after.pending.subsystems
  puts : before.pending.subsystems.Sound → before.pending.subsystems.Puts →
    after.pending.subsystems.Puts

theorem act_interfaces (session : Session) (action : ClientAction) :
    let change? := action.change? session.store
    (session.act action).2.store.interfaces =
        change?.elim session.store.interfaces (Change.apply session.store.interfaces) ∧
      (session.act action).2.store.pending.interfaces =
        change?.elim session.store.pending.interfaces
          session.store.pending.interfaces.push := by
  cases action with
  | reviseInterface name change =>
      simp only [act, ClientAction.apply, Store.reviseInterface, ClientAction.change?]
      cases session.store.interfaces.get? name <;> exact ⟨rfl, rfl⟩
  | deleteInterface name =>
      simp only [act, ClientAction.apply, Store.deleteInterface, ClientAction.change?]
      split <;> exact ⟨rfl, rfl⟩
  | deletePort name =>
      simp only [act, ClientAction.apply, Store.deletePort, ClientAction.change?]
      split <;> exact ⟨rfl, rfl⟩
  | putInterface row => exact ⟨rfl, rfl⟩
  | putPort row => exact ⟨rfl, rfl⟩
  | putSubsystem row => exact ⟨rfl, rfl⟩
  | setGeneration generation => exact ⟨rfl, rfl⟩
  | setLock lock => exact ⟨rfl, rfl⟩
  | refuseNextCommit message => exact ⟨rfl, rfl⟩

theorem change?_proper {session : Session} (keyed : Keyed session.store.interfaces)
    {action : ClientAction} (keeps : (Step.act action).KeepsNames)
    {change : Change InterfaceRow} (queues : action.change? session.store = some change) :
    change.Proper := by
  cases action with
  | putInterface row =>
      cases queues
      exact .put row
  | reviseInterface name edit =>
      obtain ⟨row, found, rfl⟩ := Option.map_eq_some_iff.mp queues
      have named : (edit row).name = name := (keeps row).trans (keyed name row found)
      exact named ▸ Change.Proper.put (edit row)
  | deleteInterface name =>
      simp only [ClientAction.change?, Option.ite_none_right_eq_some] at queues
      obtain ⟨_, queued⟩ := queues
      cases queued
      exact .deleted name
  | putPort _ | deletePort _ | putSubsystem _ | setGeneration _ | setLock _
  | refuseNextCommit _ => cases queues

theorem act_fed {session : Session} (keyed : Keyed session.store.interfaces)
    {action : ClientAction} (keeps : (Step.act action).KeepsNames) :
    Fed session.store.interfaces session.store.pending.interfaces
      (session.act action).2.store.interfaces
      (session.act action).2.store.pending.interfaces := by
  obtain ⟨interfaces, queue⟩ := act_interfaces session action
  rw [interfaces, queue]
  cases queues : action.change? session.store with
  | none => exact .kept
  | some change => exact .changed change (change?_proper keyed keeps queues)

theorem act_acted {session : Session} (keyed : Keyed session.store.interfaces)
    {action : ClientAction} (keeps : (Step.act action).KeepsNames) :
    Acted session.store (session.act action).2.store := by
  have interfaces := act_fed keyed keeps
  cases action with
  | putInterface row => exact ⟨interfaces, .kept, .kept, fun _ puts => puts⟩
  | reviseInterface name change =>
      revert interfaces
      simp only [act, ClientAction.apply, Store.reviseInterface]
      cases session.store.interfaces.get? name <;>
        exact fun interfaces => ⟨interfaces, .kept, .kept, fun _ puts => puts⟩
  | deleteInterface name =>
      revert interfaces
      simp only [act, ClientAction.apply, Store.deleteInterface]
      split <;> exact fun interfaces => ⟨interfaces, .kept, .kept, fun _ puts => puts⟩
  | putPort row => exact ⟨interfaces, .changed _ (.put row), .kept, fun _ puts => puts⟩
  | deletePort name =>
      revert interfaces
      simp only [act, ClientAction.apply, Store.deletePort]
      split
      · exact fun interfaces =>
          ⟨interfaces, .changed _ (.deleted name), .kept, fun _ puts => puts⟩
      · exact fun interfaces => ⟨interfaces, .kept, .kept, fun _ puts => puts⟩
  | putSubsystem row =>
      exact ⟨interfaces, .kept, .changed _ (.put row),
        fun sound puts => ChangeQueue.push_puts sound puts row⟩
  | setGeneration generation => exact ⟨interfaces, .kept, .kept, fun _ puts => puts⟩
  | setLock lock => exact ⟨interfaces, .kept, .kept, fun _ puts => puts⟩
  | refuseNextCommit message => exact ⟨interfaces, .kept, .kept, fun _ puts => puts⟩

theorem manager_act (session : Session) (action : ClientAction) :
    (session.act action).2.manager = session.manager := by
  unfold act
  cases action.apply session.store <;> rfl

namespace Consistent

variable {session : Session} {spoiled : String → Prop} {image : Dict InterfaceRow}
  {ports : Dict PortRow} {subsystems : Dict SubsystemRow}

theorem act (consistent : session.Consistent spoiled image ports subsystems)
    {action : ClientAction} (keeps : (Step.act action).KeepsNames) :
    (session.act action).2.Consistent spoiled image ports subsystems := by
  have acted := act_acted consistent.interfacesKeyed keeps
  have manager := manager_act session action
  constructor
  · rw [manager]
    exact consistent.tracks
  · rw [manager]
    exact consistent.interfaces.fed acted.interfaces
  · rw [manager]
    exact consistent.ports.fed acted.ports
  · rw [manager]
    exact consistent.subsystems.fed acted.subsystems
  · exact acted.interfaces.keyed consistent.interfacesKeyed
  · exact acted.ports.keyed consistent.portsKeyed
  · exact acted.subsystems.keyed consistent.subsystemsKeyed
  · rw [manager]
    exact consistent.olderPuts
  · exact acted.puts consistent.subsystems.newerSound consistent.newerPuts
  · rw [manager]
    exact consistent.limit

theorem waited (consistent : session.Consistent spoiled image ports subsystems) :
    session.waited.Consistent spoiled image ports subsystems where
  tracks := consistent.tracks.of_same rfl rfl
  interfaces := consistent.interfaces.taken
  ports := consistent.ports.taken
  subsystems := consistent.subsystems.taken
  interfacesKeyed := consistent.interfacesKeyed
  portsKeyed := consistent.portsKeyed
  subsystemsKeyed := consistent.subsystemsKeyed
  olderPuts := ChangeQueue.pushAll_puts consistent.subsystems.olderSound
    consistent.olderPuts _
    (ChangeQueue.drained_puts consistent.subsystems.newerSound consistent.newerPuts)
  newerPuts := fun _ _ absent => nomatch absent
  limit := consistent.limit

theorem readied_tracks (consistent : session.Consistent spoiled image ports subsystems) :
    session.readied.Tracks image ports :=
  consistent.tracks.of_same rfl rfl

theorem outstanding_wellFormed
    (consistent : session.Consistent spoiled image ports subsystems) :
    session.outstanding.WellFormed := by
  have older : session.manager.deferred.Sound :=
    ⟨consistent.subsystems.olderSound, consistent.interfaces.olderSound,
      consistent.ports.olderSound⟩
  have newer : session.store.pending.Sound :=
    ⟨consistent.subsystems.newerSound, consistent.interfaces.newerSound,
      consistent.ports.newerSound⟩
  exact (older.merge newer.batch_wellFormed).batch_wellFormed

/-- After a pass that reconciled, nothing is on its way any more; the images are
the tables themselves, but for the writes that were lost. -/
theorem reconciled (consistent : session.Consistent spoiled image ports subsystems)
    (passed : session.Reconciled) :
    session.pass.2.Consistent
      (fun name => (session.pass.1 = .commitFailed ∧
          (session.reconciliation.2.under name).isEmpty = false) ∨
        (spoiled name ∧ ¬ Change.Touches session.outstanding.interfaces name))
      (Store.applyUpdates (Change.applyAll image session.outstanding.interfaces)
        session.reconciliation.2)
      session.store.ports session.store.subsystems := by
  have wellFormed := consistent.outstanding_wellFormed
  have puts := ChangeQueue.drained_puts
    (ChangeQueue.pushAll_sound consistent.subsystems.olderSound
      (ChangeQueue.drained_wellFormed consistent.subsystems.newerSound).proper)
    (ChangeQueue.pushAll_puts consistent.subsystems.olderSound consistent.olderPuts _
      (ChangeQueue.drained_puts consistent.subsystems.newerSound consistent.newerPuts))
  obtain ⟨_, sameSubsystems, samePorts⟩ := passed.others
  have deferred := passed.deferred
  constructor
  · rw [passed.manager]
    have tracked := Manager.reconcile_tracks consistent.readied_tracks wellFormed
    rw [show Change.applyAll ports session.outstanding.ports = session.store.ports from
      consistent.ports.reaches] at tracked
    exact tracked
  · rw [passed.interfaces, deferred, passed.pending]
    exact consistent.interfaces.written session.reconciliation.2
      (session.pass.1 = .commitFailed)
  · rw [samePorts, deferred, passed.pending]
    exact Follows.refl session.store.ports
  · rw [sameSubsystems, deferred, passed.pending]
    exact Follows.refl session.store.subsystems
  · rw [passed.interfaces]
    split
    · exact consistent.interfacesKeyed
    · exact Store.applyUpdates_keyed consistent.interfacesKeyed _
  · rw [samePorts]
    exact consistent.portsKeyed
  · rw [sameSubsystems]
    exact consistent.subsystemsKeyed
  · rw [deferred]
    exact fun _ _ absent => nomatch absent
  · rw [passed.pending]
    exact fun _ _ absent => nomatch absent
  · rw [passed.manager]
    have limit : session.readied.maxMtu = Absorption.limitUnder
        session.readied.config.system.subsystem subsystems := consistent.limit
    have limited := Manager.reconcile_limit wellFormed limit puts
    rw [show Change.applyAll subsystems session.outstanding.subsystems =
      session.store.subsystems from consistent.subsystems.reaches] at limited
    exact limited

end Consistent

end Session

end LinkReconciler
