import LinkReconciler.Proofs.Rounds

/-!
Loading a snapshot. A store filled from a snapshot is a store to which clients put
the snapshot's rows one by one, and the snapshot of a keyed store rebuilds its
tables.
-/

namespace LinkReconciler

namespace Store

theorem foldl_putSubsystem (rows : List SubsystemRow) (store : Store) :
    rows.foldl putSubsystem store =
      { store with
        subsystems := putAll store.subsystems rows
        pending := { store.pending with
          subsystems := store.pending.subsystems.pushAll (rows.map .ofRow) } } := by
  induction rows generalizing store with
  | nil => rfl
  | cons row rest ih => exact ih (store.putSubsystem row)

theorem foldl_putInterface (rows : List InterfaceRow) (store : Store) :
    rows.foldl putInterface store =
      { store with
        interfaces := putAll store.interfaces rows
        pending := { store.pending with
          interfaces := store.pending.interfaces.pushAll (rows.map .ofRow) } } := by
  induction rows generalizing store with
  | nil => rfl
  | cons row rest ih => exact ih (store.putInterface row)

theorem foldl_putPort (rows : List PortRow) (store : Store) :
    rows.foldl putPort store =
      { store with
        ports := putAll store.ports rows
        pending := { store.pending with
          ports := store.pending.ports.pushAll (rows.map .ofRow) } } := by
  induction rows generalizing store with
  | nil => rfl
  | cons row rest ih => exact ih (store.putPort row)

theorem ofSnapshot_eq (snapshot : Snapshot) :
    ofSnapshot snapshot =
      { system := ⟨snapshot.system.generation⟩
        subsystems := putAll ∅ snapshot.subsystems
        interfaces := putAll ∅ snapshot.interfaces
        ports := putAll ∅ snapshot.ports
        pending :=
          { system := some ⟨snapshot.system.generation⟩
            subsystems := ChangeQueue.pushAll ∅ (snapshot.subsystems.map .ofRow)
            interfaces := ChangeQueue.pushAll ∅ (snapshot.interfaces.map .ofRow)
            ports := ChangeQueue.pushAll ∅ (snapshot.ports.map .ofRow) } } := by
  unfold ofSnapshot
  simp only [foldl_putSubsystem, foldl_putInterface, foldl_putPort]
  rfl

/-- Loading the snapshot of a keyed store rebuilds its tables. -/
theorem ofSnapshot_snapshot {store : Store} (subsystems : Keyed store.subsystems)
    (interfaces : Keyed store.interfaces) (ports : Keyed store.ports) :
    (ofSnapshot store.snapshot).system = store.system ∧
      (ofSnapshot store.snapshot).subsystems = store.subsystems ∧
      (ofSnapshot store.snapshot).interfaces = store.interfaces ∧
      (ofSnapshot store.snapshot).ports = store.ports := by
  rw [ofSnapshot_eq]
  exact ⟨rfl, putAll_values subsystems, putAll_values interfaces, putAll_values ports⟩

end Store

namespace Session

def restarted (config : Config) (snapshot : Snapshot) : Session where
  store := .ofSnapshot snapshot
  manager := .ofConfig config

def loading (snapshot : Snapshot) : List Step :=
  .act (.setGeneration snapshot.system.generation) ::
    (snapshot.subsystems.map (fun row => .act (.putSubsystem row)) ++
      snapshot.interfaces.map (fun row => .act (.putInterface row)) ++
      snapshot.ports.map (fun row => .act (.putPort row)))

theorem loading_keeps (snapshot : Snapshot) :
    ∀ step ∈ loading snapshot, step.KeepsNames := by
  intro step member
  simp only [loading, List.mem_cons, List.mem_append, List.mem_map] at member
  rcases member with rfl | (⟨row, _, rfl⟩ | ⟨row, _, rfl⟩) | ⟨row, _, rfl⟩
  · trivial
  · trivial
  · trivial
  · trivial

theorem after_puts {ρ : Type} (put : ρ → ClientAction) (into : Store → ρ → Store)
    (puts : ∀ store row, (put row).apply store = .ok (into store row))
    (rows : List ρ) (session : Session) :
    session.after (rows.map fun row => .act (put row)) =
      { session with store := rows.foldl into session.store } := by
  induction rows generalizing session with
  | nil => rfl
  | cons row rest ih =>
      have step : session.next (.act (put row)) =
          { session with store := into session.store row } := by
        show (session.act (put row)).2 = _
        unfold act
        rw [puts]
      rw [List.map_cons, show session.after (.act (put row) :: _) =
        (session.next (.act (put row))).after _ from rfl, step, ih]
      rfl

theorem after_loading (config : Config) (snapshot : Snapshot) :
    (start config).after (loading snapshot) = restarted config snapshot := by
  have begins : (start config).after (loading snapshot) =
      (((start config).next (.act (.setGeneration snapshot.system.generation))).after
        (snapshot.subsystems.map (fun row => .act (.putSubsystem row)) ++
          snapshot.interfaces.map (fun row => .act (.putInterface row)) ++
          snapshot.ports.map (fun row => .act (.putPort row)))) := rfl
  rw [begins, after_append, after_append,
    after_puts .putSubsystem Store.putSubsystem (fun _ _ => rfl),
    after_puts .putInterface Store.putInterface (fun _ _ => rfl),
    after_puts .putPort Store.putPort (fun _ _ => rfl)]
  rfl

theorem restarted_reconciled (config : Config) {snapshot : Snapshot}
    (configured : 0 < snapshot.system.generation) :
    (restarted config snapshot).Reconciled := by
  apply reconciled_of_mayReconcile
  unfold mayReconcile restarted
  rw [Store.ofSnapshot_eq]
  show (true && (false || decide (0 < snapshot.system.generation))) = true
  rw [decide_eq_true configured]
  rfl

end Session

end LinkReconciler
