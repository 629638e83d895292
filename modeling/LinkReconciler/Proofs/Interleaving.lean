import LinkReconciler.Proofs.SessionTables

/-!
Passes taken step by step. The daemon takes the pending changes, plans and commits,
and clients may change the store before each of these steps. From what happened so
far one reads what waits in the queue of interfaces, and whether a column was
committed over a row that was waiting.
-/

namespace LinkReconciler

/-! ## Courses -/

inductive Phase where
  | resting
  | holding (batch : Batch)
  | committing (plan : Plan)
deriving DecidableEq

inductive Move where
  | act (action : ClientAction)
  | advance

inductive Incident where
  | changed (change : Change InterfaceRow)
  | taken
  | committed (transaction : Transaction)

namespace ClientAction

/-- The action puts, updates or deletes rows other than the System row, and keeps
the name of a row that it updates. -/
def EditsRows : ClientAction → Prop
  | reviseInterface _ change => ∀ row, (change row).name = row.name
  | setGeneration _ | setLock _ | refuseNextCommit _ => False
  | _ => True

theorem EditsRows.keepsNames {action : ClientAction} (edits : action.EditsRows) :
    (Step.act action).KeepsNames := by
  cases action <;> first | exact edits | exact trivial

end ClientAction

namespace Session

theorem act_edits (session : Session) {action : ClientAction} (edits : action.EditsRows) :
    (session.act action).2.store.pending.system = session.store.pending.system ∧
      (session.act action).2.store.lock = session.store.lock ∧
      (session.act action).2.store.refusal = session.store.refusal := by
  cases action with
  | reviseInterface name change =>
      simp only [act, ClientAction.apply, Store.reviseInterface]
      cases session.store.interfaces.get? name <;> exact ⟨rfl, rfl, rfl⟩
  | deleteInterface name =>
      simp only [act, ClientAction.apply, Store.deleteInterface]
      split <;> exact ⟨rfl, rfl, rfl⟩
  | deletePort name =>
      simp only [act, ClientAction.apply, Store.deletePort]
      split <;> exact ⟨rfl, rfl, rfl⟩
  | putInterface row => exact ⟨rfl, rfl, rfl⟩
  | putPort row => exact ⟨rfl, rfl, rfl⟩
  | putSubsystem row => exact ⟨rfl, rfl, rfl⟩
  | setGeneration _ | setLock _ | refuseNextCommit _ => exact edits.elim

end Session

def Move.EditsRows : Move → Prop
  | act action => action.EditsRows
  | advance => True

/-- A session whose passes are taken step by step. -/
structure Course where
  session : Session
  phase : Phase := .resting
  /-- What happened so far, newest first. -/
  past : List Incident := []

namespace Course

def act (course : Course) (action : ClientAction) : Course where
  session := (course.session.act action).2
  phase := course.phase
  past :=
    match action.change? course.session.store with
    | some change => .changed change :: course.past
    | none => course.past

def advance (course : Course) : Course :=
  match course.phase with
  | .resting =>
      let (batch, store) := course.session.store.takeChanges
      { session := { course.session with store }
        phase := .holding batch
        past := .taken :: course.past }
  | .holding batch =>
      let (manager, plan) :=
        course.session.manager.plan batch course.session.store.lock
      { session := { course.session with manager }
        phase := .committing plan
        past := course.past }
  | .committing plan =>
      { session := (course.session.finish plan).2
        phase := .resting
        past :=
          match plan.transaction? with
          | some transaction => .committed transaction :: course.past
          | none => course.past }

def next (course : Course) : Move → Course
  | .act action => course.act action
  | .advance => course.advance

def after (course : Course) (moves : List Move) : Course :=
  moves.foldl next course

theorem advance_thrice {course : Course} (resting : course.phase = .resting) :
    course.advance.advance.advance.session = course.session.pass.2 ∧
      course.advance.advance.advance.phase = .resting := by
  obtain ⟨session, phase, past⟩ := course
  subst resting
  exact ⟨rfl, rfl⟩

end Course

/-! ## What is on its way -/

/-- What was made of a row since the changes were last taken, if anything was. -/
def waiting (name : String) : List Incident → Option (Option InterfaceRow)
  | [] => none
  | .changed change :: past =>
      if change.key = name then some change.row else waiting name past
  | .taken :: _ => none
  | .committed _ :: past => waiting name past

inductive WrittenColumn where
  | error
  | hwConfig
  | forwarding
deriving DecidableEq

namespace WrittenColumn

def read (row : InterfaceRow) : WrittenColumn → ColumnWrite
  | error => .error row.error
  | hwConfig => .hwConfig row.hwConfig
  | forwarding => .forwarding row.forwarding

def held (interface : Interface) : WrittenColumn → ColumnWrite
  | error => .error interface.error
  | hwConfig => .hwConfig interface.hwConfig
  | forwarding => .forwarding interface.forwarding

def written (update : RowUpdate) : WrittenColumn → Option ColumnWrite
  | error => update.error.map .error
  | hwConfig => update.hwConfig.map .hwConfig
  | forwarding => update.forwarding.map .forwarding

theorem read_apply (column : WrittenColumn) (update : RowUpdate) (row : InterfaceRow) :
    column.read (update.apply row) = (column.written update).getD (column.read row) := by
  obtain ⟨error, hwConfig, forwarding⟩ := update
  cases column with
  | error => cases error <;> rfl
  | hwConfig => cases hwConfig <;> rfl
  | forwarding => cases forwarding <;> rfl

theorem held_of_recorded {interface : Interface} {row : InterfaceRow} {maxMtu : UInt32}
    (recorded : interface.recorded = (Interface.ofRow row maxMtu).recorded)
    (column : WrittenColumn) : column.held interface = column.read row := by
  have same {α : Type} (field : Interface → α) := congrArg field recorded
  cases column with
  | error => exact congrArg ColumnWrite.error (same (·.error))
  | hwConfig => exact congrArg ColumnWrite.hwConfig (same (·.hwConfig))
  | forwarding => exact congrArg ColumnWrite.forwarding (same (·.forwarding))

end WrittenColumn

/-- Whether the column of a row was last committed while a change of the row was
waiting with another value. Changing the row once more makes up for it. -/
def overtaken (column : WrittenColumn) (name : String) : List Incident → Bool
  | [] => false
  | .changed change :: past => change.key ≠ name && overtaken column name past
  | .taken :: past => overtaken column name past
  | .committed transaction :: past =>
      match column.written (transaction.under name) with
      | some value => (waiting name past).join.any fun row => column.read row ≠ value
      | none => overtaken column name past

namespace Phase

def held : Phase → Pending
  | holding batch => ({} : Pending).merge batch
  | _ => {}

/-- What the registry makes of an image before the plan is committed. -/
def foreseen (image : Dict InterfaceRow) : Phase → Dict InterfaceRow
  | committing (.commit transaction) => Store.applyUpdates image transaction
  | _ => image

def system? (pending : Pending) : Phase → Option SystemRow
  | resting => pending.system
  | holding batch => batch.system
  | committing _ => none

end Phase

end LinkReconciler
