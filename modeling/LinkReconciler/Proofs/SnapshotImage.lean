import LinkReconciler.Proofs.Delivery
import LinkReconciler.Proofs.SnapshotLoad

/-!
Snapshots and the stores filled from them. Of rows with one name the last is what the table
keeps and what is queued, so the snapshot of the filled store and the first batch taken from
it have the same rows: one for each name, in the order of the names.
-/

namespace LinkReconciler

section Rows
variable {ρ : Type} [Named ρ]

/-- The rows that are the last of their name, each of them once, in the order of the names. -/
structure LastByName (rows kept : List ρ) : Prop where
  ordered : kept.Pairwise fun one other => Named.name one < Named.name other
  last : ∀ row, row ∈ kept ↔ lastNamed? rows (Named.name row) = some row

theorem Keyed.mem_values_iff {table : Dict ρ} (keyed : Keyed table) (row : ρ) :
    row ∈ table.values ↔ table.get? (Named.name row) = some row := by
  rw [Dict.mem_values_iff]
  constructor
  · rintro ⟨name, found⟩
    rwa [keyed name row found]
  · exact fun found => ⟨Named.name row, found⟩

theorem Keyed.values_ordered {table : Dict ρ} (keyed : Keyed table) :
    table.values.Pairwise fun one other => Named.name one < Named.name other := by
  have names : (table.values.map Named.name).Pairwise (· < ·) := by
    rw [Dict.values_map_eq_keys table Named.name keyed]
    exact List.pairwise_map.mpr table.sorted
  exact List.pairwise_map.mp names

theorem putAll_lastByName (rows : List ρ) : LastByName rows (putAll ∅ rows).values := by
  have keyed : Keyed (putAll ∅ rows) := putAll_keyed Session.empty_keyed rows
  refine ⟨keyed.values_ordered, fun row => ?_⟩
  rw [keyed.mem_values_iff, get?_putAll, Dict.get?_empty, Option.or_none]

/-! ## Rows on their way -/

namespace ChangeQueue

def Announces (queue : ChangeQueue ρ) (table : Dict ρ) : Prop :=
  queue.byKey = table.mapValues fun row => [.ofRow row]

theorem empty_announces : (∅ : ChangeQueue ρ).Announces ∅ := rfl

theorem push_announces {queue : ChangeQueue ρ} {table : Dict ρ}
    (announces : queue.Announces table) (keyed : Keyed table) (row : ρ) :
    (queue.push (.ofRow row)).Announces (table.insert (Named.name row) row) := by
  have queued : refold (queue.under (Named.name row)) (.ofRow row) = [.ofRow row] := by
    unfold under
    rw [announces, Dict.get?_mapValues]
    cases found : table.get? (Named.name row) with
    | none => rfl
    | some old =>
        -- The set that is queued is of the old row, under the same name.
        show [(⟨Named.name old, .set, some row⟩ : Change ρ)] = [.ofRow row]
        rw [keyed _ old found]
        rfl
  unfold Announces
  rw [byKey_push, show (Change.ofRow row).key = Named.name row from rfl, queued, announces,
    Dict.mapValues_insert]

theorem pushAll_announces {queue : ChangeQueue ρ} {table : Dict ρ}
    (announces : queue.Announces table) (keyed : Keyed table) (rows : List ρ) :
    (queue.pushAll (rows.map .ofRow)).Announces (putAll table rows) := by
  unfold pushAll putAll
  induction rows generalizing queue table with
  | nil => exact announces
  | cons row rest ih =>
      exact ih (push_announces announces keyed row) (insert_keyed keyed row)

theorem Announces.drained_eq {queue : ChangeQueue ρ} {table : Dict ρ}
    (announces : queue.Announces table) : queue.drained = table.values.map .ofRow := by
  have single : (table.mapValues fun row => [Change.ofRow row]).values =
      table.values.map fun row => [.ofRow row] := by
    simp [Dict.values, Dict.mapValues]
  rw [drained, announces, single, ← List.flatMap_def]
  exact List.map_eq_flatMap.symm

theorem drained_rows (rows : List ρ) :
    (pushAll ∅ (rows.map .ofRow)).drained = (putAll ∅ rows).values.map .ofRow :=
  (pushAll_announces empty_announces Session.empty_keyed rows).drained_eq

end ChangeQueue

end Rows

/-! ## Stores -/

structure Store.Filed (store : Store) : Prop where
  subsystems : Keyed store.subsystems
  ports : Keyed store.ports

namespace Feed

variable {feed : Feed}

theorem next_filed (filed : feed.store.Filed) (event : Event) :
    (feed.next event).store.Filed := by
  cases event with
  | act action =>
      cases action with
      | putInterface row => exact ⟨filed.subsystems, filed.ports⟩
      | reviseInterface name change =>
          simp only [next, ClientAction.apply, Store.reviseInterface]
          cases feed.store.interfaces.get? name <;> exact ⟨filed.subsystems, filed.ports⟩
      | deleteInterface name =>
          simp only [next, ClientAction.apply, Store.deleteInterface]
          split <;> exact ⟨filed.subsystems, filed.ports⟩
      | putPort row => exact ⟨filed.subsystems, insert_keyed filed.ports row⟩
      | deletePort name =>
          simp only [next, ClientAction.apply, Store.deletePort]
          split
          · exact ⟨filed.subsystems, eraseAll_keyed filed.ports [name]⟩
          · exact filed
      | putSubsystem row => exact ⟨insert_keyed filed.subsystems row, filed.ports⟩
      | setGeneration generation => exact ⟨filed.subsystems, filed.ports⟩
      | setLock lock => exact ⟨filed.subsystems, filed.ports⟩
      | refuseNextCommit message => exact ⟨filed.subsystems, filed.ports⟩
  | commit transaction =>
      simp only [next, Store.commit]
      cases feed.store.refusal <;> exact ⟨filed.subsystems, filed.ports⟩
  | take => exact ⟨filed.subsystems, filed.ports⟩

theorem after_filed (filed : feed.store.Filed) (events : List Event) :
    (feed.after events).store.Filed := by
  unfold after
  induction events generalizing feed with
  | nil => exact filed
  | cons event rest ih => exact ih (next_filed filed event)

end Feed

namespace Store

theorem snapshot_ofSnapshot (snapshot : Snapshot) :
    (ofSnapshot snapshot).snapshot =
      { system := snapshot.system
        subsystems := (putAll ∅ snapshot.subsystems).values
        interfaces := (putAll ∅ snapshot.interfaces).values
        ports := (putAll ∅ snapshot.ports).values } := by
  rw [ofSnapshot_eq]
  rfl

theorem takeChanges_ofSnapshot (snapshot : Snapshot) :
    (ofSnapshot snapshot).takeChanges.1 =
      { system := some snapshot.system
        subsystems := (putAll ∅ snapshot.subsystems).values.map .ofRow
        interfaces := (putAll ∅ snapshot.interfaces).values.map .ofRow
        ports := (putAll ∅ snapshot.ports).values.map .ofRow } := by
  rw [ofSnapshot_eq, ← ChangeQueue.drained_rows, ← ChangeQueue.drained_rows,
    ← ChangeQueue.drained_rows]
  rfl

/-- The snapshot of a store filled from a snapshot has its System row and the last row of
each name, in the order of the names; the first changes taken from it are the System row and
one set for each of those rows, in the same order. So the snapshot of a store that clients
and commits made is the snapshot of the store filled from it, if no row was renamed. -/
theorem snapshot_round_trip :
    (∀ snapshot : Snapshot,
      let store := ofSnapshot snapshot
      let image := store.snapshot
      image.system = snapshot.system ∧
      LastByName snapshot.subsystems image.subsystems ∧
      LastByName snapshot.interfaces image.interfaces ∧
      LastByName snapshot.ports image.ports ∧
      store.takeChanges.1 =
        { system := some snapshot.system
          subsystems := image.subsystems.map .ofRow
          interfaces := image.interfaces.map .ofRow
          ports := image.ports.map .ofRow }) ∧
    ∀ events : List Feed.Event,
      let store := (Feed.after {} events).store
      Keyed store.interfaces → (ofSnapshot store.snapshot).snapshot = store.snapshot := by
  constructor
  · intro snapshot store image
    have rows : image = _ := snapshot_ofSnapshot snapshot
    rw [rows]
    exact ⟨rfl, putAll_lastByName _, putAll_lastByName _, putAll_lastByName _,
      takeChanges_ofSnapshot snapshot⟩
  · intro events store keyed
    have filed : store.Filed :=
      Feed.after_filed ⟨Session.empty_keyed, Session.empty_keyed⟩ events
    obtain ⟨system, subsystems, interfaces, ports⟩ :=
      ofSnapshot_snapshot filed.subsystems keyed filed.ports
    rw [snapshot, system, subsystems, interfaces, ports]
    rfl

def repeatedNames : Snapshot where
  system := ⟨2⟩
  subsystems := [{ name := "base" }, { name := "aux" }, { name := "base" }]
  interfaces := [{ name := "2" }, { name := "10" }, { name := "2", kind := "loopback" }]
  ports := [{ name := "q", interfaces := ["2"] }, { name := "p" }, { name := "q" }]

/-- A row is renamed and gets its name back, with a commit and a refused one in between. -/
def renamedBack : List Feed.Event :=
  let blocked := Transaction.write ∅ "1" (.error (some "admin_down"))
  [.act (.putInterface { name := "1" }), .act (.putPort { name := "p", interfaces := ["1"] }),
    .act (.reviseInterface "1" fun row => { row with name := "2" }), .take, .commit blocked,
    .act (.putInterface { name := "0" }), .act (.refuseNextCommit "constraint violation"),
    .commit blocked, .act (.reviseInterface "1" fun row => { row with name := "1" }),
    .act (.deleteInterface "0"), .act (.putSubsystem { name := "base" })]

theorem repeatedNames_renamedBack :
    let kept := (ofSnapshot repeatedNames).snapshot.interfaces
    let store := (Feed.after {} renamedBack).store
    LastByName repeatedNames.interfaces kept ∧
      (ofSnapshot repeatedNames).takeChanges.1.interfaces = kept.map .ofRow ∧
      kept.map (fun row => (row.name, row.kind)) = [("10", ""), ("2", "loopback")] ∧
      Keyed store.interfaces ∧ store.interfaces.keys = ["1"] ∧
      (ofSnapshot store.snapshot).snapshot = store.snapshot := by
  intro kept store
  obtain ⟨_, _, interfaces, _, taken⟩ := snapshot_round_trip.1 repeatedNames
  have keyed : Keyed store.interfaces := by decide +kernel
  exact ⟨interfaces, congrArg Batch.interfaces taken, by decide +kernel, keyed,
    by decide +kernel, snapshot_round_trip.2 renamedBack keyed⟩

end Store

end LinkReconciler
