import LinkReconciler.Proofs.Interleaving

/-!
Overtaken writes. While a commit is on its way a client may change the row that it
writes; the queued change then carries the column as it was before the commit. When
the next pass comes out with just that value it writes nothing, and the store keeps
the value of the older commit. Without that, no interleaving of clients and daemon
keeps a column of the store from following the registry.
-/

namespace LinkReconciler

open ChangeQueue (combined)

/-! ## One table -/

/-- Image and table agree once the changes on their way are made: in the clients'
columns, and in a written column exactly where it was not overtaken. -/
structure ColumnsFollow (past : List Incident) (image table : Dict InterfaceRow)
    (older newer : ChangeQueue InterfaceRow) : Prop where
  keyed : Keyed table
  counted : newer.Counted
  waits : ∀ (image : Dict InterfaceRow) (name : String),
    (Change.applyAll image newer.drained).get? name =
      (waiting name past).getD (image.get? name)
  clients : ReachesBut InterfaceRow.clients (fun _ => False) image table
    (combined older newer)
  columns : ∀ (column : WrittenColumn) (name : String),
    ((Change.applyAll image (combined older newer)).get? name).map column.read =
        (table.get? name).map column.read ↔
      overtaken column name past = false

namespace ColumnsFollow

variable {past : List Incident} {image table : Dict InterfaceRow}

section Changed
variable {older newer : ChangeQueue InterfaceRow} (olderSound : older.Sound)
  (newerSound : newer.Sound)
include olderSound newerSound

theorem changed (follow : ColumnsFollow past image table older newer)
    {change : Change InterfaceRow} (proper : change.Proper) :
    ColumnsFollow (.changed change :: past) image (change.apply table) older
      (newer.push change) where
  keyed := apply_keyed follow.keyed proper
  counted := ChangeQueue.push_counted follow.counted change
  waits image name := by
    have outcome : change.act ((Change.applyAll image newer.drained).get? name) =
        change.row := by cases proper <;> rfl
    rw [ChangeQueue.applyAll_drained_push newerSound.filed proper.complete, Change.get?_apply, outcome,
      follow.waits]
    simp only [waiting]
    by_cases own : change.key = name
    · rw [if_pos own, if_pos own, Option.getD_some]
    · rw [if_neg own, if_neg own]
  clients := (follow.clients.changed olderSound newerSound proper).mono
    fun _ impossible => impossible.1
  columns column name := by
    rw [ChangeQueue.reached_push_iff olderSound newerSound proper, follow.columns]
    simp [overtaken, Decidable.or_iff_not_imp_left]

theorem absorbed (follow : ColumnsFollow past image table older newer) :
    ColumnsFollow past (Change.applyAll image older.drained) table ∅ newer := by
  have same : Change.applyAll (Change.applyAll image older.drained) (combined ∅ newer) =
      Change.applyAll image (combined older newer) := by
    rw [ChangeQueue.applyAll_combined ChangeQueue.empty_sound newerSound,
      ChangeQueue.applyAll_combined olderSound newerSound]
    rfl
  refine { follow with clients := fun name => ?_, columns := fun column name => ?_ }
  · rw [same]
    exact follow.clients name
  · rw [same]
    exact follow.columns column name

end Changed

variable {waits : ChangeQueue InterfaceRow}

theorem taken (follow : ColumnsFollow past image table ∅ waits) :
    ColumnsFollow (.taken :: past) image table
      ((∅ : ChangeQueue InterfaceRow).pushAll waits.drained) ∅ where
  keyed := follow.keyed
  counted := rfl
  waits _ _ := rfl
  clients := follow.clients
  columns := follow.columns

section Settled
variable (sound : waits.Sound) (follow : ColumnsFollow past image table ∅ waits)
include sound follow

theorem reached (other : Dict InterfaceRow) (name : String) :
    (Change.applyAll other (combined ∅ waits)).get? name =
      (waiting name past).getD (other.get? name) := by
  rw [ChangeQueue.applyAll_combined ChangeQueue.empty_sound sound, follow.waits]
  rfl

theorem clients_iff (name : String) :
    ((waiting name past).getD (image.get? name)).map InterfaceRow.clients =
      (table.get? name).map InterfaceRow.clients := by
  rw [← follow.reached sound]
  exact follow.clients name not_false

theorem clients_committed (transaction : Transaction) :
    ReachesBut InterfaceRow.clients (fun _ => False)
      (Store.applyUpdates image transaction) (Store.applyUpdates table transaction)
      (combined ∅ waits) := by
  intro name _
  have before := follow.clients_iff sound name
  rw [follow.reached sound, Store.get?_applyUpdates, Store.get?_applyUpdates, Option.map_map,
    RowUpdate.clients_apply, ← before]
  cases waiting name past with
  | none => rw [Option.getD_none, Option.getD_none, Option.map_map, RowUpdate.clients_apply]
  | some row => rfl

/-- A commit that writes a column brings image and table together in it, unless a row
waits with another value; one that does not write it leaves them as they were. -/
theorem column_committed (transaction : Transaction) (column : WrittenColumn)
    (name : String) :
    ((Change.applyAll (Store.applyUpdates image transaction) (combined ∅ waits)).get?
          name).map column.read =
        ((Store.applyUpdates table transaction).get? name).map column.read ↔
      overtaken column name (.committed transaction :: past) = false := by
  have viewed : column.read ∘ (transaction.under name).apply =
      fun row => (column.written (transaction.under name)).getD (column.read row) :=
    funext (column.read_apply (transaction.under name))
  have present := follow.clients_iff sound name
  have before := follow.columns column name
  rw [follow.reached sound] at before ⊢
  rw [Store.get?_applyUpdates, Store.get?_applyUpdates, Option.map_map, viewed]
  simp only [overtaken]
  cases writes : column.written (transaction.under name) with
  | some value =>
      -- Where a row waits its value decides, and without one the value went to both.
      cases queued : waiting name past with
      | none =>
          rw [queued, Option.getD_none] at present
          have both := congrArg (Option.map fun _ => value) present
          rw [Option.map_map, Option.map_map] at both
          rw [Option.getD_none, Option.map_map, viewed, writes]
          exact iff_of_true both rfl
      | some made =>
          rw [queued, Option.getD_some] at present
          cases made with
          | none =>
              have absent := Option.map_eq_none_iff.mp present.symm
              rw [absent]
              exact iff_of_true rfl rfl
          | some row =>
              obtain ⟨stored, found, _⟩ := Option.map_eq_some_iff.mp present.symm
              simp [found]
  | none =>
      rw [← before]
      cases queued : waiting name past with
      | none => rw [Option.getD_none, Option.map_map, viewed, writes]; rfl
      | some made => rfl

end Settled

theorem committed (sound : waits.Sound) (follow : ColumnsFollow past image table ∅ waits)
    (transaction : Transaction) :
    ColumnsFollow (.committed transaction :: past) (Store.applyUpdates image transaction)
      (Store.applyUpdates table transaction) ∅ waits where
  keyed := Store.applyUpdates_keyed follow.keyed transaction
  counted := follow.counted
  waits := follow.waits
  clients := follow.clients_committed sound transaction
  columns := follow.column_committed sound transaction

theorem settled (sound : waits.Sound) (follow : ColumnsFollow past image table ∅ waits)
    (idle : waits.hasPending = false) {name : String} {row : InterfaceRow}
    (stored : table.get? name = some row) :
    ∃ known, image.get? name = some known ∧
      ∀ column : WrittenColumn, column.read known = column.read row ↔
        overtaken column name past = false := by
  have reached : Change.applyAll image (combined ∅ waits) = image := by
    rw [ChangeQueue.applyAll_combined ChangeQueue.empty_sound sound,
      follow.counted.drained_eq_nil idle]
    rfl
  have clients := follow.clients name not_false
  rw [reached, stored] at clients
  obtain ⟨known, present, _⟩ := Option.map_eq_some_iff.mp clients
  refine ⟨known, present, fun column => ?_⟩
  have read := follow.columns column name
  rw [reached, stored, present, Option.map_some, Option.map_some, Option.some.injEq] at read
  exact read

end ColumnsFollow

/-! ## What every move keeps -/

theorem Session.plan_held (session : Session) {batch : Batch}
    (deferred : session.manager.deferred = {})
    (ready : session.manager.systemReady = true ∨
      ∃ system, batch.system = some system ∧ 0 < system.generation) :
    session.manager.plan batch .held =
      (let result := session.readied.reconcile (({} : Pending).merge batch).batch ∅
      (result.1, if result.2.isEmpty then .idle else .commit result.2)) := by
  have sees : ((session.manager.defer batch).systemReady ||
      (session.manager.defer batch).seesReady) = true := by
    rcases ready with seen | ⟨system, taken, configured⟩
    · rw [show (session.manager.defer batch).systemReady = true from seen, Bool.true_or]
    · have found : (session.manager.defer batch).deferred.system = some system := by
        unfold Manager.defer Pending.merge
        rw [taken, Option.some_or]
      unfold Manager.seesReady
      rw [found]
      simpa using Or.inr configured
  unfold Manager.plan
  simp only [sees, if_true]
  rw [Manager.settleDeferred_eq]
  unfold Manager.defer
  rw [deferred]
  rfl

namespace Course

/-- The daemon holds the lock of a configured system, and what its registry tracks,
with the changes on their way, is what is stored, but for the overtaken columns. -/
structure Kept (course : Course) (image : Dict InterfaceRow) (ports : Dict PortRow) :
    Prop where
  tracks : course.session.manager.Tracks (course.phase.foreseen image) ports
  rows : ColumnsFollow course.past image course.session.store.interfaces
    course.phase.held.interfaces course.session.store.pending.interfaces
  heldSound : course.phase.held.Sound
  pendingSound : course.session.store.pending.Sound
  deferred : course.session.manager.deferred = {}
  lock : course.session.store.lock = .held
  accepted : course.session.store.refusal = none
  ready : course.session.manager.systemReady = true ∨
    ∃ system, course.phase.system? course.session.store.pending = some system ∧
      0 < system.generation

def begun (config : Config) (generation : Int64) : Course where
  session := (Session.start config).next (.act (.setGeneration generation))

theorem begun_kept (config : Config) {generation : Int64} (configured : 0 < generation) :
    (begun config generation).Kept ∅ ∅ where
  tracks := Manager.ofConfig_tracks config
  rows :=
    { keyed := Session.empty_keyed
      counted := rfl
      waits := fun _ _ => rfl
      clients := fun _ _ => rfl
      columns := fun _ _ => iff_of_true rfl rfl }
  heldSound := Pending.empty_sound
  pendingSound := ⟨ChangeQueue.empty_sound, ChangeQueue.empty_sound, ChangeQueue.empty_sound⟩
  deferred := rfl
  lock := rfl
  accepted := rfl
  ready := Or.inr ⟨⟨generation⟩, rfl, configured⟩

namespace Kept

variable {course : Course} {image : Dict InterfaceRow} {ports : Dict PortRow}

theorem act (kept : course.Kept image ports) {action : ClientAction}
    (edits : action.EditsRows) : (course.act action).Kept image ports := by
  have manager := Session.manager_act course.session action
  have acted := Session.act_acted kept.rows.keyed edits.keepsNames
  obtain ⟨interfaces, queue⟩ := Session.act_interfaces course.session action
  obtain ⟨system, lock, refusal⟩ := Session.act_edits course.session edits
  constructor
  · exact manager ▸ kept.tracks
  · unfold Course.act
    simp only [interfaces, queue]
    cases queues : action.change? course.session.store with
    | none => exact kept.rows
    | some change =>
        exact kept.rows.changed kept.heldSound.interfaces kept.pendingSound.interfaces
          (Session.change?_proper kept.rows.keyed edits.keepsNames queues)
  · exact kept.heldSound
  · exact ⟨acted.subsystems.sound kept.pendingSound.subsystems,
      acted.interfaces.sound kept.pendingSound.interfaces,
      acted.ports.sound kept.pendingSound.ports⟩
  · exact manager ▸ kept.deferred
  · exact lock.trans kept.lock
  · exact refusal.trans kept.accepted
  · have same : course.phase.system? (course.session.act action).2.store.pending =
        course.phase.system? course.session.store.pending := by
      cases course.phase with
      | resting => exact system
      | holding batch => rfl
      | committing plan => rfl
    unfold Course.act
    rw [manager, same]
    exact kept.ready

theorem takes (kept : course.Kept image ports) (resting : course.phase = .resting) :
    course.advance.Kept image ports := by
  obtain ⟨session, phase, past⟩ := course
  subst resting
  exact
    { tracks := kept.tracks
      rows := kept.rows.taken
      heldSound := Pending.empty_sound.merge kept.pendingSound.batch_wellFormed
      pendingSound := Pending.empty_sound
      deferred := kept.deferred
      lock := kept.lock
      accepted := kept.accepted
      ready := kept.ready }

theorem plans (kept : course.Kept image ports) {batch : Batch}
    (holding : course.phase = .holding batch) :
    course.advance.Kept
      (Change.applyAll image (({} : Pending).merge batch).batch.interfaces)
      (Change.applyAll ports (({} : Pending).merge batch).batch.ports) := by
  obtain ⟨session, phase, past⟩ := course
  subst holding
  have readied : session.readied.Tracks image ports :=
    kept.tracks.of_same rfl rfl
  have wellFormed : (({} : Pending).merge batch).batch.WellFormed :=
    kept.heldSound.batch_wellFormed
  have reconciled := Manager.reconcile_tracks readied wellFormed
  have lock : session.store.lock = .held := kept.lock
  have planned := session.plan_held kept.deferred kept.ready
  have rows := kept.rows.absorbed kept.heldSound.interfaces kept.pendingSound.interfaces
  simp only [advance, lock, planned]
  refine
    { tracks := ?_
      rows := ?_
      heldSound := ?_
      pendingSound := kept.pendingSound
      deferred := rfl
      lock := kept.lock
      accepted := kept.accepted
      ready := Or.inl rfl }
  · split
    next empty =>
      rw [Store.applyUpdates_of_isEmpty _ empty] at reconciled
      exact reconciled
    next => exact reconciled
  · split <;> exact rows
  · split <;> exact Pending.empty_sound

theorem commits (kept : course.Kept image ports) {plan : Plan}
    (committing : course.phase = .committing plan) :
    course.advance.Kept (course.phase.foreseen image) ports := by
  obtain ⟨session, phase, past⟩ := course
  subst committing
  have ready : session.manager.systemReady = true := by
    rcases kept.ready with seen | ⟨system, none, _⟩
    · exact seen
    · cases none
  cases plan with
  | commit transaction =>
      have accepted : session.store.refusal = none := kept.accepted
      simp only [advance, Session.finish, Plan.transaction?, Store.commit, accepted]
      exact
        { kept with
          rows := kept.rows.committed kept.pendingSound.interfaces transaction
          accepted := rfl
          ready := Or.inl ready }
  | notLeader | systemNotReady | idle => exact { kept with ready := Or.inl ready }

theorem next (kept : course.Kept image ports) {move : Move} (edits : move.EditsRows) :
    ∃ image ports, (course.next move).Kept image ports := by
  cases move with
  | act action => exact ⟨image, ports, kept.act edits⟩
  | advance =>
      unfold Course.next
      cases phase : course.phase with
      | resting => exact ⟨_, _, kept.takes phase⟩
      | holding batch => exact ⟨_, _, kept.plans phase⟩
      | committing plan => exact ⟨_, _, kept.commits phase⟩

theorem after (kept : course.Kept image ports) {moves : List Move}
    (edits : ∀ move ∈ moves, move.EditsRows) :
    ∃ image ports, (course.after moves).Kept image ports := by
  induction moves generalizing course image ports with
  | nil => exact ⟨image, ports, kept⟩
  | cons move rest ih =>
      obtain ⟨editsHere, editsLater⟩ := List.forall_mem_cons.mp edits
      obtain ⟨_, _, moved⟩ := kept.next editsHere
      exact ih moved editsLater

theorem settled (kept : course.Kept image ports) (resting : course.phase = .resting)
    (settled : course.session.store.hasPending = false) {name : String}
    {row : InterfaceRow} (stored : course.session.store.interfaces.get? name = some row) :
    ∃ interface, course.session.manager.registry.interface? name = some interface ∧
      ∀ column : WrittenColumn, column.read row = column.held interface ↔
        overtaken column name course.past = false := by
  obtain ⟨session, phase, past⟩ := course
  subst resting
  have idle : session.store.pending.interfaces.hasPending = false := by
    simp only [Store.hasPending, Pending.hasPending, Bool.or_eq_false_iff] at settled
    exact settled.1.2
  obtain ⟨known, present, reads⟩ :=
    kept.rows.settled kept.pendingSound.interfaces idle stored
  obtain ⟨interface, found, recorded⟩ := kept.tracks.records.interface_of_row present
  refine ⟨interface, found, fun column => ?_⟩
  rw [WrittenColumn.held_of_recorded recorded column, eq_comm]
  exact reads column

end Kept

/-- The daemon takes its steps while clients edit rows between any two of them.
Whenever a pass has come to its end and no change is pending, each stored row has a
registered interface, and carries exactly those of its columns that were not
overtaken. -/
theorem columns_follow_registry (config : Config) {generation : Int64}
    (configured : 0 < generation) (moves : List Move)
    (edits : ∀ move ∈ moves, move.EditsRows) {plan : Plan}
    (committing : ((begun config generation).after moves).phase = .committing plan)
    (settled :
      ((begun config generation).after moves).advance.session.store.hasPending = false) :
    let ended := ((begun config generation).after moves).advance
    ∀ name row, ended.session.store.interfaces.get? name = some row →
      ∃ interface, ended.session.manager.registry.interface? name = some interface ∧
        ∀ column : WrittenColumn, column.read row = column.held interface ↔
          overtaken column name ended.past = false := by
  intro ended name row stored
  obtain ⟨_, _, kept⟩ := (begun_kept config configured).after edits
  have resting : ended.phase = .resting := by
    unfold ended advance
    rw [committing]
  exact (kept.commits committing).settled resting settled stored

/-- An interface is enabled, and disabled again just before that is committed; the
next pass has come to its commit. -/
def disabledAgain : List Move :=
  [.act (.putPort { name := "p", interfaces := ["lo"] }),
    .act (.putInterface
      { name := "lo", kind := "loopback", userConfig := .ofList [("admin", "down")] }),
    .advance, .advance, .advance, .act (setAdmin "up"), .advance, .advance,
    .act (setAdmin "down"), .advance, .advance, .advance]
where
  setAdmin (admin : String) : ClientAction :=
    .reviseInterface "lo" fun row =>
      { row with userConfig := row.userConfig.insert "admin" admin }

def changedOnceMore : List Move :=
  disabledAgain ++ [.advance, .act (.reviseInterface "lo" id), .advance, .advance]

theorem disabledAgain_editsRows : ∀ move ∈ disabledAgain, move.EditsRows := by
  simp [disabledAgain, disabledAgain.setAdmin, Move.EditsRows, ClientAction.EditsRows]

theorem changedOnceMore_editsRows : ∀ move ∈ changedOnceMore, move.EditsRows := by
  simp [changedOnceMore, disabledAgain, disabledAgain.setAdmin, Move.EditsRows,
    ClientAction.EditsRows]

theorem changedOnceMore_followed :
    let ended := ((begun {} 1).after changedOnceMore).advance
    ∃ row interface, ended.session.store.interfaces.get? "lo" = some row ∧
      ended.session.manager.registry.interface? "lo" = some interface ∧
      ∀ column : WrittenColumn, column.read row = column.held interface := by
  intro ended
  have committing : ((begun {} 1).after changedOnceMore).phase =
      .committing (.commit ((∅ : Transaction).writeAll
        [("lo", .error (some "admin_down")), ("lo", .hwConfig (.ofList [("enable", "false")])),
          ("lo", .forwarding (.ofList [("forwarding", "false")]))])) := by decide +kernel
  have stored : (ended.session.store.interfaces.get? "lo").isSome = true := by
    decide +kernel
  obtain ⟨row, present⟩ := Option.isSome_iff_exists.mp stored
  obtain ⟨interface, found, followed⟩ := columns_follow_registry {} (by decide)
    changedOnceMore changedOnceMore_editsRows committing (by decide +kernel) "lo" row present
  refine ⟨row, interface, present, found, fun column => (followed column).mpr ?_⟩
  cases column <;> decide +kernel

/-- The store still has the interface enabled, the registry has it disabled. -/
theorem disabledAgain_overtaken :
    let ended := ((begun {} 1).after disabledAgain).advance
    (∀ move ∈ disabledAgain, move.EditsRows) ∧
      ((begun {} 1).after disabledAgain).phase = .committing .idle ∧
      ended.session.store.hasPending = false ∧
      (ended.session.store.interfaces.get? "lo").map (fun row =>
          (row.error, row.hwConfig.get? "enable", row.forwarding.get? "forwarding")) =
        some (none, some "true", some "true") ∧
      (ended.session.manager.registry.interface? "lo").map (fun interface =>
          (interface.error, interface.hwConfig.get? "enable",
            interface.forwarding.get? "forwarding")) =
        some (some "admin_down", some "false", some "false") :=
  ⟨disabledAgain_editsRows, by decide +kernel, by decide +kernel, by decide +kernel,
    by decide +kernel⟩

end Course

end LinkReconciler
