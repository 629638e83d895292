import LinkReconciler.Table.Row

/-!
Changes of the rows of one table, and the queue that folds them. Per key the
queue keeps at most a deletion followed by one new row: a deletion forgets what
was queued before it, and a later row replaces an earlier one.
-/

namespace LinkReconciler

inductive Operation where
  | set
  | del
deriving DecidableEq, Repr

/-- A change of the row under a key. A deletion normally carries no row. -/
structure Change (ρ : Type) where
  key : String
  op : Operation
  row : Option ρ := none
deriving DecidableEq

namespace Change

variable {ρ : Type}

def set (key : String) (row : ρ) : Change ρ := ⟨key, .set, some row⟩

def del (key : String) : Change ρ := ⟨key, .del, none⟩

def ofRow [Named ρ] (row : ρ) : Change ρ := set (Named.name row) row

def isDel (change : Change ρ) : Bool :=
  change.op = .del

def apply (image : Dict ρ) (change : Change ρ) : Dict ρ :=
  match change.op, change.row with
  | .del, _ => image.erase change.key
  | .set, some row => image.insert change.key row
  | .set, none => image

def applyAll (image : Dict ρ) (changes : List (Change ρ)) : Dict ρ :=
  changes.foldl apply image

end Change

/-- The changes of one table that nobody has taken yet. -/
structure ChangeQueue (ρ : Type) where
  byKey : Dict (List (Change ρ)) := ∅
  count : Nat := 0
deriving DecidableEq

namespace ChangeQueue

variable {ρ : Type}

instance : EmptyCollection (ChangeQueue ρ) := ⟨{}⟩

def hasPending (queue : ChangeQueue ρ) : Bool :=
  queue.count > 0

def under (queue : ChangeQueue ρ) (key : String) : List (Change ρ) :=
  (queue.byKey.get? key).getD []

/-- Gives the last change of a key's queue a new row, if that change is a `set`. -/
def replaceLast? (row : Option ρ) :
    List (Change ρ) → Option (List (Change ρ))
  | [] => none
  | [last] =>
      match last.op with
      | .set => some [{ last with row }]
      | .del => none
  | first :: rest => (replaceLast? row rest).map (first :: ·)

def push (queue : ChangeQueue ρ) (change : Change ρ) : ChangeQueue ρ :=
  let queued := queue.under change.key
  match change.op with
  | .del =>
      { byKey := queue.byKey.insert change.key [change]
        count := queue.count - queued.length + 1 }
  | .set =>
      -- A row after a deletion is kept apart from it, so that both are seen.
      match replaceLast? change.row queued with
      | some replaced =>
          { queue with byKey := queue.byKey.insert change.key replaced }
      | none =>
          { byKey := queue.byKey.insert change.key (queued ++ [change])
            count := queue.count + 1 }

def pushAll (queue : ChangeQueue ρ) (changes : List (Change ρ)) :
    ChangeQueue ρ :=
  changes.foldl push queue

def drained (queue : ChangeQueue ρ) : List (Change ρ) :=
  queue.byKey.values.flatten

def drain (queue : ChangeQueue ρ) : List (Change ρ) × ChangeQueue ρ :=
  (queue.drained, ∅)

end ChangeQueue

end LinkReconciler
