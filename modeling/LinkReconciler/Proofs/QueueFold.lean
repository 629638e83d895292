import LinkReconciler.Proofs.ChangeFold

/-!
What queues keep of any changes, whether or not keys and rows go together. A queue
holds, per key, the last deletion and the last change that set a row after it; pending
changes hold that of every table, and the latest System row.
-/

namespace LinkReconciler

variable {ρ : Type}

namespace Change

/-- The last deletion of a history, and the last change after it. -/
def folded (history : List (Change ρ)) : List (Change ρ) :=
  (history.reverse.find? isDel).toList ++
    (history.reverse.takeWhile fun change => !change.isDel).head?.toList

theorem folded_concat_del (history : List (Change ρ)) {change : Change ρ}
    (deletes : change.isDel = true) : folded (history ++ [change]) = [change] := by
  simp [folded, deletes]

theorem folded_concat_set (history : List (Change ρ)) {change : Change ρ}
    (sets : change.isDel = false) :
    folded (history ++ [change]) = (history.reverse.find? isDel).toList ++ [change] := by
  simp [folded, sets]

theorem mem_of_mem_folded {history : List (Change ρ)} {change : Change ρ}
    (member : change ∈ folded history) : change ∈ history := by
  rcases List.mem_append.mp member with deletion | later
  · exact List.mem_reverse.mp (List.mem_of_find?_eq_some (Option.mem_toList.mp deletion))
  · have last := List.mem_of_mem_head? (Option.mem_toList.mp later)
    exact List.mem_reverse.mp ((List.takeWhile_sublist _).subset last)

theorem ofKey_append (key : String) (changes more : List (Change ρ)) :
    ofKey key (changes ++ more) = ofKey key changes ++ ofKey key more :=
  List.filter_append ..

end Change

namespace ChangeQueue

open Change

theorem refold_folded_eq {history : List (Change ρ)} {change : Change ρ}
    (keyed : ∀ earlier ∈ history, earlier.key = change.key) :
    refold (folded history) change = folded (history ++ [change]) := by
  cases op : change.op with
  | del =>
      rw [folded_concat_del history (by simp [isDel, op])]
      simp [refold, op]
  | set =>
      rw [folded_concat_set history (by simp [isDel, op])]
      unfold folded
      cases last : (history.reverse.takeWhile fun change => !change.isDel).head? with
      | none =>
          have kept : replaceLast? change.row (history.reverse.find? isDel).toList = none := by
            cases deletion : history.reverse.find? isDel with
            | none => rfl
            | some gone =>
                have deletes := List.find?_some deletion
                simpa [deletes] using replaceLast?_concat change.row [] gone
          simp [refold, op, kept]
      | some earlier =>
          have among := List.mem_of_mem_head? last
          have sets : earlier.isDel = false := by
            simpa using List.all_eq_true.mp List.all_takeWhile earlier among
          have key := keyed earlier
            (List.mem_reverse.mp ((List.takeWhile_sublist _).subset among))
          -- The key and the operation are the same, so the new row is all that changes.
          have same : { earlier with row := change.row } = change := by
            obtain ⟨name, operation, old⟩ := earlier
            obtain ⟨own, kind, row⟩ := change
            cases key
            cases op
            cases operation with
            | del => cases sets
            | set => rfl
          simp [refold, op, replaceLast?_concat, sets, same]

def Keeps (queue : ChangeQueue ρ) (history : List (Change ρ)) : Prop :=
  ∀ key, queue.under key = folded (ofKey key history)

theorem empty_keeps : Keeps (∅ : ChangeQueue ρ) [] :=
  fun _ => rfl

theorem push_keeps {queue : ChangeQueue ρ} {history : List (Change ρ)}
    (keeps : queue.Keeps history) (change : Change ρ) :
    (queue.push change).Keeps (history ++ [change]) := by
  intro key
  rw [under_push, ofKey_append, ofKey_cons, keeps key]
  by_cases own : change.key = key
  · rw [if_pos own, if_pos own]
    apply refold_folded_eq
    intro earlier member
    rw [own]
    exact ((mem_ofKey_iff key history earlier).mp member).2
  · simp [own, ofKey]

theorem pushAll_keeps {queue : ChangeQueue ρ} {history : List (Change ρ)}
    (keeps : queue.Keeps history) (changes : List (Change ρ)) :
    (queue.pushAll changes).Keeps (history ++ changes) := by
  unfold pushAll
  induction changes generalizing queue history with
  | nil => simpa using keeps
  | cons change rest ih => simpa using ih (push_keeps keeps change)

theorem Keeps.filed {queue : ChangeQueue ρ} {history : List (Change ρ)}
    (keeps : queue.Keeps history) : queue.Filed := by
  intro key change member
  rw [keeps key] at member
  exact ((mem_ofKey_iff key history change).mp (mem_of_mem_folded member)).2

theorem Keeps.drained {queue : ChangeQueue ρ} {history : List (Change ρ)}
    (keeps : queue.Keeps history) (key : String) :
    ofKey key queue.drained = folded (ofKey key history) :=
  (ofKey_drained keeps.filed key).trans (keeps key)

end ChangeQueue

/-- A batch holds what some batches fold to: their latest System row and, per table and
key, the last deletion and the last change after it. -/
structure Batch.FoldOf (batch : Batch) (delivered : List Batch) : Prop where
  system : batch.system = (delivered.filterMap (·.system)).getLast?
  subsystems : ∀ key, Change.ofKey key batch.subsystems =
    Change.folded (Change.ofKey key (delivered.flatMap (·.subsystems)))
  interfaces : ∀ key, Change.ofKey key batch.interfaces =
    Change.folded (Change.ofKey key (delivered.flatMap (·.interfaces)))
  ports : ∀ key, Change.ofKey key batch.ports =
    Change.folded (Change.ofKey key (delivered.flatMap (·.ports)))

namespace Pending

structure Gathers (pending : Pending) (delivered : List Batch) : Prop where
  system : pending.system = (delivered.filterMap (·.system)).getLast?
  subsystems : pending.subsystems.Keeps (delivered.flatMap (·.subsystems))
  interfaces : pending.interfaces.Keeps (delivered.flatMap (·.interfaces))
  ports : pending.ports.Keeps (delivered.flatMap (·.ports))

theorem empty_gathers : Gathers {} [] :=
  ⟨rfl, ChangeQueue.empty_keeps, ChangeQueue.empty_keeps, ChangeQueue.empty_keeps⟩

theorem merge_gathers {pending : Pending} {delivered : List Batch}
    (gathers : pending.Gathers delivered) (batch : Batch) :
    (pending.merge batch).Gathers (delivered ++ [batch]) := by
  constructor
  case system =>
    cases row : batch.system <;> simp [merge, row, gathers.system]
  case subsystems =>
    simpa [merge] using ChangeQueue.pushAll_keeps gathers.subsystems batch.subsystems
  case interfaces =>
    simpa [merge] using ChangeQueue.pushAll_keeps gathers.interfaces batch.interfaces
  case ports =>
    simpa [merge] using ChangeQueue.pushAll_keeps gathers.ports batch.ports

theorem Gathers.foldOf {pending : Pending} {delivered : List Batch}
    (gathers : pending.Gathers delivered) : pending.batch.FoldOf delivered where
  system := gathers.system
  subsystems := gathers.subsystems.drained
  interfaces := gathers.interfaces.drained
  ports := gathers.ports.drained

end Pending

end LinkReconciler
