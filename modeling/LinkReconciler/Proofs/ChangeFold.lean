import LinkReconciler.Proofs.Lookup
import LinkReconciler.Table.Batch

/-!
Folding of changes. What a list of changes does to an image of its table is read
key by key (`get?_applyAll`). A queue keeps, per key, at most a deletion followed
by one set, and draining it does what all the pushed changes would have done.
-/

namespace LinkReconciler

variable {ρ : Type}

namespace Change

/-! ## Changes, key by key -/

def ofKey (key : String) (changes : List (Change ρ)) : List (Change ρ) :=
  changes.filter fun change => change.key = key

def act (change : Change ρ) (old : Option ρ) : Option ρ :=
  match change.op, change.row with
  | .del, _ => none
  | .set, some row => some row
  | .set, none => old

def outcome (changes : List (Change ρ)) (old : Option ρ) : Option ρ :=
  changes.foldl (fun old change => change.act old) old

def Touches (changes : List (Change ρ)) (key : String) : Prop :=
  ∃ change ∈ changes, change.key = key

/-- A change that leaves the same row whatever was stored before: a set that brings a
row, under whatever name the row has, or a deletion. -/
inductive Complete : Change ρ → Prop where
  | put (key : String) (row : ρ) : Complete (.set key row)
  | deleted (key : String) : Complete (.del key)

theorem Complete.act_eq {change : Change ρ} (complete : change.Complete)
    (old other : Option ρ) : change.act old = change.act other := by
  cases complete with
  | put key row => rfl
  | deleted key => rfl

theorem ofKey_cons (key : String) (change : Change ρ) (rest : List (Change ρ)) :
    ofKey key (change :: rest) =
      if change.key = key then change :: ofKey key rest else ofKey key rest := by
  by_cases hit : change.key = key <;> simp [ofKey, hit]

theorem mem_ofKey_iff (key : String) (changes : List (Change ρ)) (change : Change ρ) :
    change ∈ ofKey key changes ↔ change ∈ changes ∧ change.key = key := by
  simp [ofKey]

theorem touches_iff_ofKey (changes : List (Change ρ)) (key : String) :
    Touches changes key ↔ ofKey key changes ≠ [] := by
  constructor
  · rintro ⟨change, member, same⟩
    exact List.ne_nil_of_mem ((mem_ofKey_iff key changes change).mpr ⟨member, same⟩)
  · intro nonempty
    obtain ⟨change, member⟩ := List.exists_mem_of_ne_nil _ nonempty
    exact ⟨change, (mem_ofKey_iff key changes change).mp member⟩

theorem get?_apply (image : Dict ρ) (change : Change ρ) (key : String) :
    (apply image change).get? key =
      if change.key = key then change.act (image.get? key) else image.get? key := by
  obtain ⟨own, op, row⟩ := change
  cases op with
  | del => simp only [apply, act, Dict.get?_erase]
  | set =>
      cases row with
      | none => simp only [apply, act, ite_self]
      | some row => simp only [apply, act, Dict.get?_insert]

theorem Complete.alike_iff {α : Type} {view : ρ → α} {change : Change ρ}
    (complete : change.Complete) (image table : Dict ρ) (name : String) :
    ((change.apply image).get? name).map view = ((change.apply table).get? name).map view ↔
      change.key = name ∨ (image.get? name).map view = (table.get? name).map view := by
  rw [get?_apply, get?_apply]
  by_cases own : change.key = name
  · rw [if_pos own, if_pos own, complete.act_eq]
    exact iff_of_true rfl (Or.inl own)
  · rw [if_neg own, if_neg own]
    exact (or_iff_right own).symm

theorem get?_applyAll (image : Dict ρ) (changes : List (Change ρ)) (key : String) :
    (applyAll image changes).get? key =
      outcome (ofKey key changes) (image.get? key) := by
  unfold applyAll
  induction changes generalizing image with
  | nil => rfl
  | cons change rest ih =>
      rw [List.foldl_cons, ih, get?_apply, ofKey_cons]
      by_cases hit : change.key = key <;> simp [hit, outcome]

theorem not_touches_nil (key : String) : ¬ Touches ([] : List (Change ρ)) key := by
  rintro ⟨change, member, _⟩
  cases member

theorem get?_applyAll_of_untouched {changes : List (Change ρ)} {key : String}
    (untouched : ¬ Touches changes key) (image : Dict ρ) :
    (applyAll image changes).get? key = image.get? key := by
  rw [touches_iff_ofKey, Decidable.not_not] at untouched
  rw [get?_applyAll, untouched]
  rfl

end Change

/-! ## Well-formed changes -/

section WellFormed
variable [Named ρ]

/-- What a folded history of one key looks like: at most one deletion, which
carries no row, followed by at most one row of that name. -/
inductive Folded (key : String) : List (Change ρ) → Prop where
  | untouched : Folded key []
  | deleted : Folded key [.del key]
  | put (row : ρ) (named : Named.name row = key) : Folded key [.set key row]
  | replaced (row : ρ) (named : Named.name row = key) :
      Folded key [.del key, .set key row]

namespace Change

inductive Proper : Change ρ → Prop where
  | put (row : ρ) : Proper (.ofRow row)
  | deleted (key : String) : Proper (.del key)

theorem Proper.complete {change : Change ρ} (proper : change.Proper) :
    change.Complete := by
  cases proper with
  | put row => exact .put (Named.name row) row
  | deleted key => exact .deleted key

/-- Every key has at most one deletion followed by at most one set, each of them
proper. -/
def WellFormed (changes : List (Change ρ)) : Prop :=
  ∀ key, Folded key (ofKey key changes)

def deletedNames (changes : List (Change ρ)) : List String :=
  (changes.filter isDel).map (·.key)

omit [Named ρ] in
def rows (changes : List (Change ρ)) : List ρ :=
  changes.filterMap fun change => if change.isDel then none else change.row

end Change

theorem folded_iff (key : String) (changes : List (Change ρ)) :
    Folded key changes ↔ changes = [] ∨ changes = [.del key] ∨
      ∃ row ∈ Change.rows changes, Named.name row = key ∧
        (changes = [.set key row] ∨ changes = [.del key, .set key row]) := by
  constructor
  · intro folded
    cases folded with
    | untouched => exact Or.inl rfl
    | deleted => exact Or.inr (Or.inl rfl)
    | put row named =>
        exact Or.inr (Or.inr ⟨row, List.mem_singleton_self row, named, Or.inl rfl⟩)
    | replaced row named =>
        exact Or.inr (Or.inr ⟨row, List.mem_singleton_self row, named, Or.inr rfl⟩)
  · rintro (rfl | rfl | ⟨row, _, named, rfl | rfl⟩)
    · exact .untouched
    · exact .deleted
    · exact .put row named
    · exact .replaced row named

instance [DecidableEq ρ] (key : String) (changes : List (Change ρ)) :
    Decidable (Folded key changes) :=
  decidable_of_iff _ (folded_iff key changes).symm

instance [DecidableEq ρ] (changes : List (Change ρ)) :
    Decidable (Change.WellFormed changes) :=
  decidable_of_iff (∀ change ∈ changes, Folded change.key (Change.ofKey change.key changes)) (by
    constructor
    · intro each key
      by_cases touched : Change.Touches changes key
      · obtain ⟨change, member, rfl⟩ := touched
        exact each change member
      · rw [Change.touches_iff_ofKey, Decidable.not_not] at touched
        rw [touched]
        exact .untouched
    · exact fun wellFormed change _ => wellFormed change.key)

theorem Folded.tail {key : String} {change : Change ρ} {rest : List (Change ρ)}
    (folded : Folded key (change :: rest)) : Folded key rest := by
  cases folded with
  | deleted => exact .untouched
  | put row named => exact .untouched
  | replaced row named => exact .put row named

theorem Folded.proper {key : String} {changes : List (Change ρ)}
    (folded : Folded key changes) (change : Change ρ) (member : change ∈ changes) :
    change.Proper := by
  have put (row : ρ) (named : Named.name row = key) : (Change.set key row).Proper :=
    named ▸ Change.Proper.put row
  cases folded with
  | untouched => cases member
  | deleted =>
      rw [List.mem_singleton.mp member]
      exact .deleted key
  | put row named =>
      rw [List.mem_singleton.mp member]
      exact put row named
  | replaced row named =>
      rcases List.mem_cons.mp member with same | tail
      · exact same ▸ .deleted key
      · rw [List.mem_singleton.mp tail]
        exact put row named

theorem Folded.key_eq {key : String} {changes : List (Change ρ)}
    (folded : Folded key changes) (change : Change ρ) (member : change ∈ changes) :
    change.key = key := by
  cases folded with
  | untouched => cases member
  | deleted => rw [List.mem_singleton.mp member]; rfl
  | put row named => rw [List.mem_singleton.mp member]; rfl
  | replaced row named =>
      rcases List.mem_cons.mp member with same | tail
      · rw [same]; rfl
      · rw [List.mem_singleton.mp tail]; rfl

namespace Change

theorem WellFormed.nil : WellFormed ([] : List (Change ρ)) :=
  fun _ => .untouched

theorem WellFormed.put (row : ρ) : WellFormed [Change.ofRow row] := by
  intro key
  rw [ofKey_cons]
  split
  next same =>
    subst same
    exact .put row rfl
  next => exact .untouched

theorem WellFormed.deleted (key : String) : WellFormed [(Change.del key : Change ρ)] := by
  intro other
  rw [ofKey_cons]
  split
  next same =>
    subst same
    exact .deleted
  next => exact .untouched

theorem WellFormed.replaced (row : ρ) :
    WellFormed [Change.del (Named.name row), Change.ofRow row] := by
  intro key
  have deleted : (Change.del (Named.name row) : Change ρ).key = Named.name row := rfl
  have put : (Change.ofRow row).key = Named.name row := rfl
  rw [ofKey_cons, ofKey_cons, deleted, put]
  split
  next same =>
    subst same
    exact .replaced row rfl
  next => exact .untouched

theorem WellFormed.tail {change : Change ρ} {rest : List (Change ρ)}
    (wellFormed : WellFormed (change :: rest)) : WellFormed rest := by
  intro key
  have folded := wellFormed key
  rw [ofKey_cons] at folded
  by_cases hit : change.key = key
  · rw [if_pos hit] at folded
    exact folded.tail
  · rwa [if_neg hit] at folded

theorem WellFormed.proper {changes : List (Change ρ)} (wellFormed : WellFormed changes)
    (change : Change ρ) (member : change ∈ changes) : change.Proper :=
  (wellFormed change.key).proper change
    ((mem_ofKey_iff change.key changes change).mpr ⟨member, rfl⟩)

omit [Named ρ] in
theorem mem_rows_iff (changes : List (Change ρ)) (row : ρ) :
    row ∈ rows changes ↔
      ∃ change ∈ changes, change.isDel = false ∧ change.row = some row := by
  simp only [rows, List.mem_filterMap]
  refine exists_congr fun change => and_congr_right fun _ => ?_
  cases change.isDel <;> simp

theorem rows_cons_put (row : ρ) (rest : List (Change ρ)) :
    rows (ofRow row :: rest) = row :: rows rest := rfl

omit [Named ρ] in
theorem rows_cons_deleted (key : String) (rest : List (Change ρ)) :
    rows (.del key :: rest) = rows rest := rfl

theorem updates_eq_rows {changes : List (Change ρ)} (wellFormed : WellFormed changes) :
    changes.filter (fun change => !change.isDel) = (rows changes).map .ofRow := by
  induction changes with
  | nil => rfl
  | cons change rest ih =>
      have tail := ih wellFormed.tail
      cases wellFormed.proper change List.mem_cons_self with
      | put row =>
          rw [List.filter_cons_of_pos rfl, rows_cons_put, List.map_cons, tail]
      | deleted key =>
          rw [List.filter_cons_of_neg (fun isSet => by cases isSet),
            rows_cons_deleted, tail]

theorem ofRow_mem_of_mem_rows {changes : List (Change ρ)} (wellFormed : WellFormed changes)
    {row : ρ} (member : row ∈ rows changes) : ofRow row ∈ changes := by
  obtain ⟨change, present, isSet, carries⟩ := (mem_rows_iff changes row).mp member
  cases wellFormed.proper change present with
  | put other =>
      cases carries
      exact present
  | deleted key => cases isSet

theorem outcome_of_mem_rows {changes : List (Change ρ)} (wellFormed : WellFormed changes)
    (row : ρ) (member : row ∈ rows changes) (old : Option ρ) :
    outcome (ofKey (Named.name row) changes) old = some row := by
  have under : ofRow row ∈ ofKey (Named.name row) changes :=
    (mem_ofKey_iff _ changes _).mpr ⟨ofRow_mem_of_mem_rows wellFormed member, rfl⟩
  -- A folded history has at most one set, so this row is what it ends with.
  have folded := wellFormed (Named.name row)
  generalize ofKey (Named.name row) changes = history at folded under
  have isRow (other : ρ) (same : ofRow row = .set (Named.name row) other) :
      some other = some row := by
    cases same
    rfl
  cases folded with
  | untouched => cases under
  | deleted => cases List.mem_singleton.mp under
  | put other _ => exact isRow other (List.mem_singleton.mp under)
  | replaced other _ =>
      rcases List.mem_cons.mp under with same | tail
      · cases same
      · exact isRow other (List.mem_singleton.mp tail)

theorem get?_applyAll_of_mem_rows {changes : List (Change ρ)}
    (wellFormed : WellFormed changes) {row : ρ} (member : row ∈ rows changes)
    (image : Dict ρ) : (applyAll image changes).get? (Named.name row) = some row :=
  (get?_applyAll image changes _).trans (outcome_of_mem_rows wellFormed row member _)

theorem outcome_of_not_mem_rows {changes : List (Change ρ)}
    (wellFormed : WellFormed changes) (key : String)
    (absent : key ∉ (rows changes).map Named.name) (old : Option ρ) :
    outcome (ofKey key changes) old =
      if key ∈ deletedNames changes then none else old := by
  have noRow (row : ρ) (named : Named.name row = key) :
      (Change.set key row) ∉ ofKey key changes := by
    intro member
    refine absent (List.mem_map.mpr ⟨row, (mem_rows_iff changes row).mpr ?_, named⟩)
    exact ⟨_, ((mem_ofKey_iff key changes _).mp member).1, rfl, rfl⟩
  have deletes : key ∈ deletedNames changes ↔
      ∃ change ∈ ofKey key changes, change.isDel = true := by
    simp only [deletedNames, List.mem_map, List.mem_filter, mem_ofKey_iff]
    constructor
    · rintro ⟨change, ⟨member, del⟩, same⟩
      exact ⟨change, ⟨member, same⟩, del⟩
    · rintro ⟨change, ⟨member, same⟩, del⟩
      exact ⟨change, ⟨member, del⟩, same⟩
  -- Without a row the history can only be empty or a single deletion.
  have folded := wellFormed key
  generalize ofKey key changes = history at folded noRow deletes
  cases folded with
  | untouched =>
      have kept : key ∉ deletedNames changes := by simp [deletes]
      simp [outcome, kept]
  | deleted =>
      have gone : key ∈ deletedNames changes :=
        deletes.mpr ⟨.del key, List.mem_singleton_self _, rfl⟩
      simp only [gone, if_true]
      rfl
  | put row named => exact absurd (List.mem_singleton_self _) (noRow row named)
  | replaced row named =>
      exact absurd (List.mem_cons_of_mem _ (List.mem_singleton_self _)) (noRow row named)

theorem rows_names_nodup {changes : List (Change ρ)} (wellFormed : WellFormed changes) :
    ((rows changes).map Named.name).Nodup := by
  induction changes with
  | nil => exact List.nodup_nil
  | cons change rest ih =>
      have tail := ih wellFormed.tail
      cases wellFormed.proper change List.mem_cons_self with
      | deleted key =>
          rw [rows_cons_deleted]
          exact tail
      | put row =>
          rw [rows_cons_put, List.map_cons, List.nodup_cons]
          -- A second row of the name would follow the first in the history of its key,
          -- and no folded history has two sets.
          refine ⟨fun again => ?_, tail⟩
          obtain ⟨other, member, same⟩ := List.mem_map.mp again
          have later := outcome_of_mem_rows wellFormed.tail other member none
          have folded := wellFormed (Named.name row)
          rw [same] at later
          rw [ofKey_cons, if_pos (show (ofRow row).key = Named.name row from rfl)] at folded
          generalize ofKey (Named.name row) rest = history at folded later
          cases folded
          cases later

end Change

end WellFormed

/-! ## Queues -/

namespace ChangeQueue

/-- The changes queued under a key after one more change of that key. -/
def refold (queued : List (Change ρ)) (change : Change ρ) : List (Change ρ) :=
  match change.op with
  | .del => [change]
  | .set => (replaceLast? change.row queued).getD (queued ++ [change])

theorem byKey_push (queue : ChangeQueue ρ) (change : Change ρ) :
    (queue.push change).byKey =
      queue.byKey.insert change.key (refold (queue.under change.key) change) := by
  obtain ⟨key, op, row⟩ := change
  cases op with
  | del => rfl
  | set =>
      simp only [push, refold]
      cases replaceLast? row (queue.under key) <;> rfl

theorem under_push (queue : ChangeQueue ρ) (change : Change ρ) (key : String) :
    (queue.push change).under key =
      if change.key = key then refold (queue.under key) change
      else queue.under key := by
  have found : (queue.push change).byKey.get? key = if change.key = key then
      some (refold (queue.under change.key) change) else queue.byKey.get? key := by
    rw [byKey_push, Dict.get?_insert]
  unfold under at found ⊢
  rw [found]
  by_cases own : change.key = key <;> simp [own]

theorem replaceLast?_concat (row : Option ρ) (queued : List (Change ρ)) (last : Change ρ) :
    replaceLast? row (queued ++ [last]) =
      if last.isDel then none else some (queued ++ [{ last with row }]) := by
  induction queued with
  | nil => cases op : last.op <;> simp [replaceLast?, Change.isDel, op]
  | cons first rest ih =>
      have others : replaceLast? row (first :: (rest ++ [last])) =
          (replaceLast? row (rest ++ [last])).map (first :: ·) := by
        cases rest <;> rfl
      rw [List.cons_append, others, ih]
      split <;> rfl

/-- A refolded queue ends with the change or with a row that the change put into the
last one, so a complete change acts on what was queued before. -/
theorem outcome_refold {change : Change ρ} (complete : change.Complete)
    (queued : List (Change ρ)) (old : Option ρ) :
    Change.outcome (refold queued change) old =
      change.act (Change.outcome queued old) := by
  cases complete with
  | deleted key => rfl
  | put key row =>
      rcases List.eq_nil_or_concat queued with rfl | ⟨before, last, rfl⟩
      · rfl
      · have kept := replaceLast?_concat (some row) before last
        cases op : last.op <;>
          simp [refold, Change.set, kept, Change.outcome, Change.act, Change.isDel, op]

theorem key_of_mem_refold {key : String} {queued : List (Change ρ)} {change : Change ρ}
    (keyed : ∀ earlier ∈ queued, earlier.key = key) (own : change.key = key) :
    ∀ later ∈ refold queued change, later.key = key := by
  cases op : change.op with
  | del => simpa [refold, op] using own
  | set =>
      rcases List.eq_nil_or_concat queued with rfl | ⟨before, last, rfl⟩
      · simpa [refold, op, replaceLast?] using own
      · rw [List.concat_eq_append] at keyed ⊢
        obtain ⟨others, lastOwn⟩ := List.forall_mem_append.mp keyed
        have same : last.key = key := lastOwn last (List.mem_singleton_self last)
        simp only [refold, op, replaceLast?_concat]
        split
        · exact List.forall_mem_append.mpr ⟨keyed, List.forall_mem_singleton.mpr own⟩
        · exact List.forall_mem_append.mpr ⟨others, List.forall_mem_singleton.mpr same⟩

def Filed (queue : ChangeQueue ρ) : Prop :=
  ∀ key, ∀ change ∈ queue.under key, change.key = key

theorem empty_filed : Filed (∅ : ChangeQueue ρ) :=
  fun _ _ absent => nomatch absent

theorem push_filed {queue : ChangeQueue ρ} (filed : queue.Filed) (change : Change ρ) :
    (queue.push change).Filed := by
  intro key
  rw [under_push]
  by_cases own : change.key = key
  · rw [if_pos own]
    exact key_of_mem_refold (filed key) own
  · rw [if_neg own]
    exact filed key

theorem ofKey_flatten (entries : List (String × List (Change ρ)))
    (sorted : entries.Pairwise fun left right => left.1 < right.1)
    (keyed : ∀ entry ∈ entries, ∀ change ∈ entry.2, change.key = entry.1)
    (key : String) :
    Change.ofKey key (entries.map (·.2)).flatten =
      (Dict.find? key entries).getD [] := by
  induction entries with
  | nil => rfl
  | cons head rest ih =>
      obtain ⟨name, queued⟩ := head
      rw [List.pairwise_cons] at sorted
      have own : ∀ change ∈ queued, change.key = name :=
        keyed (name, queued) List.mem_cons_self
      have tail := ih sorted.2 fun entry member =>
        keyed entry (List.mem_cons_of_mem _ member)
      simp only [Change.ofKey, List.map_cons, List.flatten_cons,
        List.filter_append, Dict.find?] at tail ⊢
      rw [tail]
      by_cases hit : name = key
      · subst hit
        have all : queued.filter (fun change => change.key = name) = queued :=
          List.filter_eq_self.mpr fun change member => by simp [own change member]
        -- The entries are sorted, so no later one is of this key again.
        have later : Dict.find? name rest = none :=
          Dict.find?_eq_none fun entry member same =>
            String.lt_irrefl _ (same ▸ sorted.1 entry member)
        simp [all, later]
      · have none : queued.filter (fun change => change.key = key) = [] :=
          List.filter_eq_nil_iff.mpr fun change member => by
            simp [own change member, hit]
        simp [none, hit]

theorem Filed.keyed {queue : ChangeQueue ρ} (filed : queue.Filed) :
    ∀ entry ∈ queue.byKey.entries, ∀ change ∈ entry.2, change.key = entry.1 := by
  rintro ⟨name, queued⟩ member change inside
  have found := (Dict.get?_eq_some_iff queue.byKey name queued).mpr member
  apply filed name
  simpa [under, found] using inside

theorem ofKey_drained {queue : ChangeQueue ρ} (filed : queue.Filed) (key : String) :
    Change.ofKey key queue.drained = queue.under key :=
  ofKey_flatten queue.byKey.entries queue.byKey.sorted filed.keyed key

/-- Draining after one more push does what draining and then the push would do. -/
theorem applyAll_drained_push {queue : ChangeQueue ρ} (filed : queue.Filed)
    {change : Change ρ} (complete : change.Complete) (image : Dict ρ) :
    Change.applyAll image (queue.push change).drained =
      Change.apply (Change.applyAll image queue.drained) change := by
  -- Draining goes by keys and not by time, which look-ups of one key do not see.
  ext key : 1
  rw [Change.get?_applyAll, ofKey_drained (push_filed filed change), under_push,
    Change.get?_apply, Change.get?_applyAll, ofKey_drained filed]
  by_cases hit : change.key = key
  · rw [if_pos hit, if_pos hit, outcome_refold complete]
  · rw [if_neg hit, if_neg hit]

/-! ## Counting -/

def Counted (queue : ChangeQueue ρ) : Prop :=
  queue.count = queue.drained.length

theorem length_drained_insert (queue : ChangeQueue ρ) (key : String)
    (queued : List (Change ρ)) (count : Nat) :
    (ChangeQueue.drained ⟨queue.byKey.insert key queued, count⟩).length +
        (queue.under key).length =
      queued.length + queue.drained.length :=
  Dict.length_flatten_insertEntry key queued queue.byKey.sorted

theorem length_of_replaceLast? {row : Option ρ} {queued replaced : List (Change ρ)}
    (found : replaceLast? row queued = some replaced) :
    replaced.length = queued.length := by
  rcases List.eq_nil_or_concat queued with rfl | ⟨before, last, rfl⟩
  · cases found
  · rw [List.concat_eq_append, replaceLast?_concat, Option.ite_none_left_eq_some] at found
    obtain ⟨_, same⟩ := found
    cases same
    simp

theorem push_counted {queue : ChangeQueue ρ} (counted : queue.Counted)
    (change : Change ρ) : (queue.push change).Counted := by
  unfold Counted at counted ⊢
  obtain ⟨key, op, row⟩ := change
  cases op with
  | del =>
      have drained := queue.length_drained_insert key [⟨key, .del, row⟩]
        (queue.count - (queue.under key).length + 1)
      have part : (queue.under key).length ≤ queue.drained.length := by
        have emptied := queue.length_drained_insert key [] 0
        rw [List.length_nil] at emptied
        omega
      simp only [push, List.length_singleton] at drained ⊢
      omega
  | set =>
      cases found : replaceLast? row (queue.under key) with
      | some replaced =>
          have drained := queue.length_drained_insert key replaced queue.count
          have same := length_of_replaceLast? found
          simp only [push, found] at drained ⊢
          omega
      | none =>
          have drained := queue.length_drained_insert key
            (queue.under key ++ [⟨key, .set, row⟩]) (queue.count + 1)
          simp only [push, found, List.length_append, List.length_singleton] at drained ⊢
          omega

theorem pushAll_counted {queue : ChangeQueue ρ} (counted : queue.Counted)
    (changes : List (Change ρ)) : (queue.pushAll changes).Counted := by
  unfold pushAll
  induction changes generalizing queue with
  | nil => exact counted
  | cons change rest ih => exact ih (push_counted counted change)

theorem Counted.drained_eq_nil {queue : ChangeQueue ρ} (counted : queue.Counted)
    (idle : queue.hasPending = false) : queue.drained = [] := by
  refine List.eq_nil_of_length_eq_zero (counted.symm.trans ?_)
  simpa [hasPending] using idle

/-! ## Sound queues -/

variable [Named ρ]

def Sound (queue : ChangeQueue ρ) : Prop :=
  ∀ key, Folded key (queue.under key)

theorem Sound.filed {queue : ChangeQueue ρ} (sound : queue.Sound) : queue.Filed :=
  fun key => (sound key).key_eq

theorem empty_sound : Sound (∅ : ChangeQueue ρ) :=
  fun _ => .untouched

theorem refold_folded {key : String} {queued : List (Change ρ)} {change : Change ρ}
    (folded : Folded key queued) (proper : change.Proper) (same : change.key = key) :
    Folded key (refold queued change) := by
  cases proper with
  | deleted own =>
      subst same
      exact .deleted
  | put row =>
      subst same
      cases folded with
      | untouched => exact .put row rfl
      | deleted => exact .replaced row rfl
      | put old named => exact .put row rfl
      | replaced old named => exact .replaced row rfl

theorem refold_ne_nil {key : String} {queued : List (Change ρ)} {change : Change ρ}
    (folded : Folded key queued) (proper : change.Proper) :
    refold queued change ≠ [] := by
  cases proper with
  | deleted own => exact List.cons_ne_nil _ _
  | put row => cases folded <;> exact List.cons_ne_nil _ _

theorem push_sound {queue : ChangeQueue ρ} (sound : queue.Sound) {change : Change ρ}
    (proper : change.Proper) : (queue.push change).Sound := by
  intro key
  rw [under_push]
  by_cases hit : change.key = key
  · rw [if_pos hit]
    exact refold_folded (sound key) proper hit
  · rw [if_neg hit]
    exact sound key

theorem drained_wellFormed {queue : ChangeQueue ρ} (sound : queue.Sound) :
    Change.WellFormed queue.drained := by
  intro key
  rw [ofKey_drained sound.filed]
  exact sound key

theorem touches_drained_push {queue : ChangeQueue ρ} (sound : queue.Sound)
    {change : Change ρ} (proper : change.Proper) (key : String) :
    Change.Touches (queue.push change).drained key ↔
      change.key = key ∨ Change.Touches queue.drained key := by
  rw [Change.touches_iff_ofKey, Change.touches_iff_ofKey,
    ofKey_drained (push_filed sound.filed change), ofKey_drained sound.filed, under_push]
  by_cases hit : change.key = key
  · simp [hit, refold_ne_nil (sound key) proper]
  · simp [hit]

theorem pushAll_sound {queue : ChangeQueue ρ} (sound : queue.Sound)
    {changes : List (Change ρ)} (proper : ∀ change ∈ changes, change.Proper) :
    (queue.pushAll changes).Sound := by
  unfold pushAll
  induction changes generalizing queue with
  | nil => exact sound
  | cons change rest ih =>
      obtain ⟨head, tail⟩ := List.forall_mem_cons.mp proper
      exact ih (push_sound sound head) tail

theorem applyAll_drained_pushAll {queue : ChangeQueue ρ} (sound : queue.Sound)
    {changes : List (Change ρ)} (proper : ∀ change ∈ changes, change.Proper)
    (image : Dict ρ) :
    Change.applyAll image (queue.pushAll changes).drained =
      Change.applyAll (Change.applyAll image queue.drained) changes := by
  unfold pushAll
  induction changes generalizing queue with
  | nil => rfl
  | cons change rest ih =>
      obtain ⟨head, tail⟩ := List.forall_mem_cons.mp proper
      rw [List.foldl_cons, ih (push_sound sound head) tail,
        applyAll_drained_push sound.filed head.complete]
      rfl

theorem touches_drained_pushAll {queue : ChangeQueue ρ} (sound : queue.Sound)
    {changes : List (Change ρ)} (proper : ∀ change ∈ changes, change.Proper)
    (key : String) :
    Change.Touches (queue.pushAll changes).drained key ↔
      Change.Touches changes key ∨ Change.Touches queue.drained key := by
  unfold pushAll
  induction changes generalizing queue with
  | nil => simp [Change.Touches]
  | cons change rest ih =>
      obtain ⟨head, tail⟩ := List.forall_mem_cons.mp proper
      rw [List.foldl_cons, ih (push_sound sound head) tail,
        touches_drained_push sound head]
      simp only [Change.Touches, List.mem_cons, exists_eq_or_imp]
      exact or_left_comm.trans or_assoc.symm

end ChangeQueue

/-! ## Batches -/

structure Batch.WellFormed (batch : Batch) : Prop where
  subsystems : Change.WellFormed batch.subsystems
  interfaces : Change.WellFormed batch.interfaces
  ports : Change.WellFormed batch.ports

theorem Batch.wellFormed_iff (batch : Batch) :
    batch.WellFormed ↔ Change.WellFormed batch.subsystems ∧
      Change.WellFormed batch.interfaces ∧ Change.WellFormed batch.ports :=
  ⟨fun ⟨subsystems, interfaces, ports⟩ => ⟨subsystems, interfaces, ports⟩,
    fun ⟨subsystems, interfaces, ports⟩ => ⟨subsystems, interfaces, ports⟩⟩

instance (batch : Batch) : Decidable batch.WellFormed :=
  decidable_of_iff _ batch.wellFormed_iff.symm

structure Pending.Sound (pending : Pending) : Prop where
  subsystems : pending.subsystems.Sound
  interfaces : pending.interfaces.Sound
  ports : pending.ports.Sound

namespace Pending

theorem empty_sound : ({} : Pending).Sound :=
  ⟨ChangeQueue.empty_sound, ChangeQueue.empty_sound, ChangeQueue.empty_sound⟩

theorem Sound.batch_wellFormed {pending : Pending} (sound : pending.Sound) :
    pending.batch.WellFormed :=
  ⟨ChangeQueue.drained_wellFormed sound.subsystems,
    ChangeQueue.drained_wellFormed sound.interfaces,
    ChangeQueue.drained_wellFormed sound.ports⟩

theorem Sound.merge {pending : Pending} (sound : pending.Sound) {batch : Batch}
    (wellFormed : batch.WellFormed) : (pending.merge batch).Sound :=
  ⟨ChangeQueue.pushAll_sound sound.subsystems wellFormed.subsystems.proper,
    ChangeQueue.pushAll_sound sound.interfaces wellFormed.interfaces.proper,
    ChangeQueue.pushAll_sound sound.ports wellFormed.ports.proper⟩

end Pending

end LinkReconciler
