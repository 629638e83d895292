import LinkReconciler.Proofs.QueueFold

/-!
Queues over their history. Whatever was pushed and whenever a queue was drained, it
holds what was pushed since: in number, in order, in effect on an image of the table,
and in the names that were deleted. Pending changes are taken as they were counted.
-/

namespace LinkReconciler

variable {ρ : Type}

namespace Change

theorem Complete.eq_del {change : Change ρ} (complete : change.Complete)
    (deletes : change.isDel = true) : change = .del change.key := by
  cases complete with
  | put key row => cases deletes
  | deleted key => rfl

theorem del_mem_folded {history : List (Change ρ)} {key : String}
    (complete : ∀ change ∈ history, change.Complete)
    (keyed : ∀ change ∈ history, change.key = key) :
    .del key ∈ folded history ↔ .del key ∈ history := by
  refine ⟨mem_of_mem_folded, fun member => ?_⟩
  cases found : history.reverse.find? isDel with
  | none =>
      have sets := List.find?_eq_none.mp found _ (List.mem_reverse.mpr member)
      exact absurd rfl sets
  | some last =>
      have among := List.mem_reverse.mp (List.mem_of_find?_eq_some found)
      have same := (complete last among).eq_del (List.find?_some found)
      rw [keyed last among] at same
      refine List.mem_append_left _ (Option.mem_toList.mpr ?_)
      rw [found, same]

end Change

namespace ChangeQueue

open Change

/-! ## What a key's queue looks like -/

/-- What stands in the queue of a key: a deletion, a row, or a row after a deletion. -/
inductive Compact (key : String) : List (Change ρ) → Prop where
  | deleted : Compact key [.del key]
  | put (row : ρ) : Compact key [.set key row]
  | replaced (row : ρ) : Compact key [.del key, .set key row]

def Compacted (queue : ChangeQueue ρ) : Prop :=
  ∀ key queued, queue.byKey.get? key = some queued → Compact key queued

theorem empty_compacted : (∅ : ChangeQueue ρ).Compacted :=
  fun _ _ found => nomatch found

theorem refold_compact {key : String} {queued : List (Change ρ)} {change : Change ρ}
    (compact : queued = [] ∨ Compact key queued) (complete : change.Complete)
    (own : change.key = key) : Compact key (refold queued change) := by
  subst own
  cases complete with
  | deleted key => exact .deleted
  | put key row =>
      obtain rfl | compact := compact
      · exact .put row
      · cases compact with
        | deleted => exact .replaced row
        | put old => exact .put row
        | replaced old => exact .replaced row

theorem push_compacted {queue : ChangeQueue ρ} (compacted : queue.Compacted)
    {change : Change ρ} (complete : change.Complete) : (queue.push change).Compacted := by
  intro key queued found
  rw [byKey_push, Dict.get?_insert] at found
  by_cases own : change.key = key
  · rw [if_pos own] at found
    cases found
    refine refold_compact ?_ complete own
    unfold under
    cases before : queue.byKey.get? change.key with
    | none => exact Or.inl rfl
    | some queued => exact Or.inr (own ▸ compacted _ queued before)
  · rw [if_neg own] at found
    exact compacted key queued found

/-! ## The order of a drain -/

theorem keys_flatten_sorted (entries : List (String × List (Change ρ)))
    (sorted : entries.Pairwise fun left right => left.1 < right.1)
    (keyed : ∀ entry ∈ entries, ∀ change ∈ entry.2, change.key = entry.1) :
    (entries.map (·.2)).flatten.Pairwise fun one other => one.key ≤ other.key := by
  refine List.pairwise_flatten.mpr ⟨?_, List.pairwise_map.mpr ?_⟩
  · intro queued member
    obtain ⟨entry, present, rfl⟩ := List.mem_map.mp member
    refine List.pairwise_of_forall_mem_list fun one first other second => ?_
    have same : one.key = other.key :=
      (keyed entry present one first).trans (keyed entry present other second).symm
    exact same ▸ String.le_refl one.key
  · refine sorted.imp_of_mem fun {left right} atLeft atRight before one first other second => ?_
    rw [keyed left atLeft one first, keyed right atRight other second]
    exact String.not_lt.mp (String.lt_asymm before)

theorem drained_sorted {queue : ChangeQueue ρ} (filed : queue.Filed) :
    queue.drained.Pairwise fun one other => one.key ≤ other.key :=
  keys_flatten_sorted queue.byKey.entries queue.byKey.sorted filed.keyed

theorem Counted.length_under_le {queue : ChangeQueue ρ} (counted : queue.Counted)
    (key : String) : (queue.under key).length ≤ queue.count := by
  have emptied := queue.length_drained_insert key [] 0
  rw [List.length_nil] at emptied
  rw [counted]
  omega

/-! ## Runs -/

inductive Use (ρ : Type) where
  | set (key : String) (row : ρ)
  | del (key : String)
  | drain

def use (queue : ChangeQueue ρ) : Use ρ → ChangeQueue ρ
  | .set key row => queue.push (.set key row)
  | .del key => queue.push (.del key)
  | .drain => queue.drain.2

def recent (pushed : List (Change ρ)) : Use ρ → List (Change ρ)
  | .set key row => pushed ++ [.set key row]
  | .del key => pushed ++ [.del key]
  | .drain => []

/-- A queue holds some changes, none of them without effect on its row. -/
structure Holds (queue : ChangeQueue ρ) (pushed : List (Change ρ)) : Prop where
  complete : ∀ change ∈ pushed, change.Complete
  keeps : queue.Keeps pushed
  compacted : queue.Compacted
  counted : queue.Counted
  effect : ∀ image, applyAll image queue.drained = applyAll image pushed

theorem empty_holds : (∅ : ChangeQueue ρ).Holds [] where
  complete := nofun
  keeps := empty_keeps
  compacted := empty_compacted
  counted := rfl
  effect _ := rfl

theorem push_holds {queue : ChangeQueue ρ} {pushed : List (Change ρ)}
    (holds : queue.Holds pushed) {change : Change ρ} (complete : change.Complete) :
    (queue.push change).Holds (pushed ++ [change]) where
  complete := List.forall_mem_append.mpr
    ⟨holds.complete, List.forall_mem_singleton.mpr complete⟩
  keeps := push_keeps holds.keeps change
  compacted := push_compacted holds.compacted complete
  counted := push_counted holds.counted change
  effect image := by
    rw [applyAll_drained_push holds.keeps.filed complete, holds.effect]
    simp [applyAll]

theorem use_holds {queue : ChangeQueue ρ} {pushed : List (Change ρ)}
    (holds : queue.Holds pushed) (event : Use ρ) :
    (queue.use event).Holds (recent pushed event) := by
  cases event with
  | set key row => exact push_holds holds (.put key row)
  | del key => exact push_holds holds (.deleted key)
  | drain => exact empty_holds

theorem foldl_use_holds {queue : ChangeQueue ρ} {pushed : List (Change ρ)}
    (holds : queue.Holds pushed) (events : List (Use ρ)) :
    (events.foldl use queue).Holds (events.foldl recent pushed) := by
  induction events generalizing queue pushed with
  | nil => exact holds
  | cons event rest ih => exact ih (use_holds holds event)

/-- A drain gives what was pushed, folded: as many changes as were counted, where no
key has more than are counted altogether; per key one of three queues; in the order of
the keys; with the effect of all that was pushed; and with the deletions. -/
structure Yields (queue : ChangeQueue ρ) (pushed drained : List (Change ρ)) : Prop where
  counted : queue.count = drained.length
  covered : ∀ key, (queue.under key).length ≤ queue.count
  compact : ∀ key queued, queue.byKey.get? key = some queued → Compact key queued
  grouped : ∀ key, ofKey key drained = queue.under key
  ordered : drained.Pairwise fun one other => one.key ≤ other.key
  effect : ∀ image, applyAll image drained = applyAll image pushed
  deletions : ∀ key, .del key ∈ drained ↔ .del key ∈ pushed

theorem Holds.yields {queue : ChangeQueue ρ} {pushed : List (Change ρ)}
    (holds : queue.Holds pushed) : queue.Yields pushed queue.drain.1 where
  counted := holds.counted
  covered := holds.counted.length_under_le
  compact := holds.compacted
  grouped := ofKey_drained holds.keeps.filed
  ordered := drained_sorted holds.keeps.filed
  effect := holds.effect
  deletions key := by
    have ofOne (changes : List (Change ρ)) :
        .del key ∈ changes ↔ .del key ∈ ofKey key changes := by
      rw [mem_ofKey_iff]
      exact (and_iff_left rfl).symm
    rw [ofOne, ofOne pushed, drain, holds.keeps.drained key]
    refine del_mem_folded (fun change member => ?_) fun change member => ?_
    · exact holds.complete change ((mem_ofKey_iff key pushed change).mp member).1
    · exact ((mem_ofKey_iff key pushed change).mp member).2

end ChangeQueue

namespace Pending

inductive Use where
  | setSystem (row : SystemRow)
  | pushSubsystem (change : Change SubsystemRow)
  | pushInterface (change : Change InterfaceRow)
  | pushPort (change : Change PortRow)
  | merge (batch : Batch)
  | take

def use (pending : Pending) : Use → Pending
  | .setSystem row => pending.setSystem row
  | .pushSubsystem change => pending.pushSubsystem change
  | .pushInterface change => pending.pushInterface change
  | .pushPort change => pending.pushPort change
  | .merge batch => pending.merge batch
  | .take => pending.take.2

structure Counted (pending : Pending) : Prop where
  subsystems : pending.subsystems.Counted
  interfaces : pending.interfaces.Counted
  ports : pending.ports.Counted

theorem empty_counted : ({} : Pending).Counted :=
  ⟨rfl, rfl, rfl⟩

theorem use_counted {pending : Pending} (counted : pending.Counted) (event : Use) :
    (pending.use event).Counted := by
  cases event with
  | setSystem row => exact ⟨counted.subsystems, counted.interfaces, counted.ports⟩
  | pushSubsystem change =>
      exact ⟨ChangeQueue.push_counted counted.subsystems change, counted.interfaces,
        counted.ports⟩
  | pushInterface change =>
      exact ⟨counted.subsystems, ChangeQueue.push_counted counted.interfaces change,
        counted.ports⟩
  | pushPort change =>
      exact ⟨counted.subsystems, counted.interfaces,
        ChangeQueue.push_counted counted.ports change⟩
  | merge batch =>
      exact ⟨ChangeQueue.pushAll_counted counted.subsystems batch.subsystems,
        ChangeQueue.pushAll_counted counted.interfaces batch.interfaces,
        ChangeQueue.pushAll_counted counted.ports batch.ports⟩
  | take => exact empty_counted

theorem foldl_use_counted {pending : Pending} (counted : pending.Counted)
    (events : List Use) : (events.foldl use pending).Counted := by
  induction events generalizing pending with
  | nil => exact counted
  | cons event rest ih => exact ih (use_counted counted event)

theorem Counted.size_take {pending : Pending} (counted : pending.Counted) :
    pending.take.1.size = pending.count := by
  unfold count
  rw [counted.subsystems, counted.interfaces, counted.ports]
  rfl

end Pending

/-- Over every history a queue yields what was pushed since the drain before, and pending
changes are taken as they were counted, with nothing left over. -/
theorem ChangeQueue.folds_without_loss :
    (∀ events : List (ChangeQueue.Use ρ),
      let queue := events.foldl ChangeQueue.use ∅
      queue.Yields (events.foldl ChangeQueue.recent []) queue.drain.1) ∧
    ∀ events : List Pending.Use,
      let pending := events.foldl Pending.use {}
      pending.take.1.size = pending.count ∧ pending.take.2.hasPending = false := by
  refine ⟨fun events => ?_, fun events => ⟨?_, rfl⟩⟩
  · exact (ChangeQueue.foldl_use_holds ChangeQueue.empty_holds events).yields
  · exact (Pending.foldl_use_counted Pending.empty_counted events).size_take

end LinkReconciler
