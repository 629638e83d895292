/-!
Closed vocabularies: each value of an enumeration has one word, and a text is
read by looking it up among the words.
-/

namespace LinkReconciler

structure UnknownWord where
  noun : String
  word : String
deriving DecidableEq, Repr

namespace UnknownWord

def message (error : UnknownWord) : String :=
  "Unknown " ++ error.noun ++ ": " ++ error.word

end UnknownWord

namespace Vocabulary

variable {α : Type}

/-- The first listed value that has this word. -/
def find? (word : α → String) : List α → String → Option α
  | [], _ => none
  | value :: rest, text =>
      if word value = text then some value else find? word rest text

def read (noun : String) (find? : String → Option α) (text : String) :
    Except UnknownWord α :=
  match find? text with
  | some value => .ok value
  | none => .error ⟨noun, text⟩

end Vocabulary

end LinkReconciler
