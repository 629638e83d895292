import LinkReconciler.Proofs.SessionTables
import Mathlib.Data.Finset.Card

/-!
Writes in the order in which they were issued. A transaction merges them by row and column,
and committing it leaves what the writes would leave if each of them had overwritten its
column at once. A refused commit leaves everything but the refusal.
-/

namespace LinkReconciler

def ColumnWrite.issuedUnder (name : String) (writes : List (String × ColumnWrite)) :
    List ColumnWrite :=
  (writes.filter fun entry => entry.1 = name).map (·.2)

theorem ColumnWrite.issuedUnder_cons (name : String) (entry : String × ColumnWrite)
    (rest : List (String × ColumnWrite)) :
    issuedUnder name (entry :: rest) =
      if entry.1 = name then entry.2 :: issuedUnder name rest else issuedUnder name rest := by
  by_cases own : entry.1 = name <;> simp [issuedUnder, own]

namespace RowUpdate

theorem apply_write (update : RowUpdate) (column : ColumnWrite) (row : InterfaceRow) :
    (update.write column).apply row = column.apply (update.apply row) := by
  cases column <;> rfl

theorem apply_foldl_write (columns : List ColumnWrite) (update : RowUpdate)
    (row : InterfaceRow) :
    (columns.foldl write update).apply row =
      columns.foldl ColumnWrite.apply (update.apply row) := by
  induction columns generalizing update with
  | nil => rfl
  | cons column rest ih => rw [List.foldl_cons, ih, apply_write, List.foldl_cons]

end RowUpdate

namespace Transaction

theorem under_writeAll (transaction : Transaction) (writes : List (String × ColumnWrite))
    (name : String) :
    (transaction.writeAll writes).under name =
      (ColumnWrite.issuedUnder name writes).foldl RowUpdate.write (transaction.under name) := by
  unfold writeAll
  induction writes generalizing transaction with
  | nil => rfl
  | cons entry rest ih =>
      rw [List.foldl_cons, ih, under_write, ColumnWrite.issuedUnder_cons]
      by_cases own : entry.1 = name
      · rw [if_pos own, if_pos own, List.foldl_cons]
      · rw [if_neg own, if_neg own]

theorem writeAll_terse {transaction : Transaction} (terse : transaction.Terse)
    (writes : List (String × ColumnWrite)) : (transaction.writeAll writes).Terse := by
  unfold writeAll
  induction writes generalizing transaction with
  | nil => exact terse
  | cons entry rest ih => exact ih (write_terse terse entry.1 entry.2)

theorem contains_writeAll (transaction : Transaction) (writes : List (String × ColumnWrite))
    (name : String) :
    (transaction.writeAll writes).updates.contains name = true ↔
      name ∈ writes.map Prod.fst ∨ transaction.updates.contains name = true := by
  unfold writeAll
  induction writes generalizing transaction with
  | nil => simp
  | cons entry rest ih =>
      rw [List.foldl_cons, ih, List.map_cons, List.mem_cons]
      by_cases own : entry.1 = name
      · simp [write, Dict.contains, Dict.get?_insert, own]
      · simp [write, Dict.contains, Dict.get?_insert, own, Ne.symm own]

theorem isEmpty_iff_size_eq_zero (transaction : Transaction) :
    transaction.isEmpty = true ↔ transaction.size = 0 := by
  simp [isEmpty, size]

theorem Terse.size_eq {transaction : Transaction} (terse : transaction.Terse) :
    transaction.size = transaction.updates.keys.length := by
  have all : transaction.updates.values.filter (fun update => !update.isEmpty) =
      transaction.updates.values := by
    refine List.filter_eq_self.mpr fun update member => ?_
    obtain ⟨name, found⟩ := (Dict.mem_values_iff _ update).mp member
    simp [terse name update found]
  rw [size, all, Dict.values, Dict.keys, List.length_map, List.length_map]

theorem size_writeAll (writes : List (String × ColumnWrite)) :
    (writeAll ∅ writes).size = (writes.map Prod.fst).toFinset.card := by
  have names : (writeAll ∅ writes).updates.keys.toFinset =
      (writes.map Prod.fst).toFinset := by
    ext name
    rw [List.mem_toFinset, List.mem_toFinset, Dict.mem_keys_iff, contains_writeAll]
    exact or_iff_left Bool.false_ne_true
  rw [(writeAll_terse empty_terse writes).size_eq, ← names,
    List.toFinset_card_of_nodup (Dict.keys_nodup _)]

theorem isEmpty_writeAll (writes : List (String × ColumnWrite)) :
    (writeAll ∅ writes).isEmpty = true ↔ writes = [] := by
  rw [isEmpty_iff_size_eq_zero, size_writeAll, Finset.card_eq_zero, List.toFinset_eq_empty_iff,
    List.map_eq_nil_iff]

end Transaction

namespace Store

def overwriteAll (rows : Dict InterfaceRow) (writes : List (String × ColumnWrite)) :
    Dict InterfaceRow :=
  writes.foldl (fun rows entry => rows.modify entry.1 fun row => entry.2.apply row) rows

theorem get?_overwriteAll (rows : Dict InterfaceRow) (writes : List (String × ColumnWrite))
    (name : String) :
    (overwriteAll rows writes).get? name =
      (rows.get? name).map fun row =>
        (ColumnWrite.issuedUnder name writes).foldl ColumnWrite.apply row := by
  unfold overwriteAll
  induction writes generalizing rows with
  | nil => exact Option.map_id'.symm
  | cons entry rest ih =>
      rw [List.foldl_cons, ih, Dict.get?_modify, ColumnWrite.issuedUnder_cons]
      by_cases own : entry.1 = name
      · rw [if_pos own, if_pos own, Option.map_map]
        rfl
      · rw [if_neg own, if_neg own]

/-- The rows hold the same merged as one after another. -/
theorem applyUpdates_writeAll (rows : Dict InterfaceRow)
    (writes : List (String × ColumnWrite)) :
    applyUpdates rows (.writeAll ∅ writes) = overwriteAll rows writes := by
  ext name : 1
  rw [get?_applyUpdates, get?_overwriteAll, Transaction.under_writeAll]
  congr 1
  funext row
  rw [RowUpdate.apply_foldl_write]
  rfl

theorem clients_overwriteAll (rows : Dict InterfaceRow)
    (writes : List (String × ColumnWrite)) (name : String) :
    ((overwriteAll rows writes).get? name).map InterfaceRow.clients =
      (rows.get? name).map InterfaceRow.clients := by
  rw [← applyUpdates_writeAll, get?_applyUpdates, Option.map_map, RowUpdate.clients_apply]

/-- Unless it is refused, a commit leaves the interface rows as if each write had overwritten
its column of the row stored under its name, in the order of the writes; it adds to the
count of commits and changes nothing else. A refused commit reports the refusal and changes
nothing but that it is over. The transaction counts the distinct names written under, and
is empty if nothing was written. -/
theorem commit_as_issued (writes : List (String × ColumnWrite)) (store : Store) :
    let transaction := Transaction.writeAll ∅ writes
    let rows := overwriteAll store.interfaces writes
    store.commit transaction =
        (match store.refusal with
        | none => (.ok (), { store with interfaces := rows, commits := store.commits + 1 })
        | some message => (.error (.commit message), { store with refusal := none })) ∧
      (∀ name, rows.get? name = (store.interfaces.get? name).map fun row =>
        (ColumnWrite.issuedUnder name writes).foldl ColumnWrite.apply row) ∧
      (∀ name, (rows.get? name).map InterfaceRow.clients =
        (store.interfaces.get? name).map InterfaceRow.clients) ∧
      transaction.size = (writes.map Prod.fst).toFinset.card ∧
      (transaction.isEmpty = true ↔ writes = []) := by
  refine ⟨?_, get?_overwriteAll store.interfaces writes,
    clients_overwriteAll store.interfaces writes, Transaction.size_writeAll writes,
    Transaction.isEmpty_writeAll writes⟩
  unfold commit
  cases store.refusal with
  | none => rw [applyUpdates_writeAll]
  | some message => rfl

end Store

end LinkReconciler
