import LinkReconciler.Dict

/-!
Finite sets of names, traversed in name order.
-/

namespace LinkReconciler

abbrev NameSet := Dict Unit

namespace NameSet

def add (names : NameSet) (name : String) : NameSet :=
  names.insert name ()

def addAll (names : NameSet) (more : List String) : NameSet :=
  more.foldl add names

theorem contains_add (names : NameSet) (name other : String) :
    (names.add name).contains other = (name == other || names.contains other) := by
  simp only [add, Dict.contains, Dict.get?_insert]
  by_cases hit : name = other <;> simp [hit]

theorem contains_addAll (names : NameSet) (more : List String) (name : String) :
    (names.addAll more).contains name =
      (more.contains name || names.contains name) := by
  unfold addAll
  induction more generalizing names with
  | nil => simp
  | cons head rest ih =>
      rw [List.foldl_cons, ih, contains_add, List.contains_cons,
        show (name == head) = (head == name) from BEq.comm,
        Bool.or_assoc, Bool.or_left_comm]

end NameSet

end LinkReconciler
