/-!
What can go wrong, as causes. The wording of each is in `message`.
-/

namespace LinkReconciler

inductive StoreError where
  | commit (message : String)
  | snapshot (path message : String)
  | rowNotFound (table key : String)
deriving DecidableEq, Repr

inductive Failure where
  | invalidConfig (field message : String)
  | configFile (path message : String)
  | duplicateEntry (table key : String)
  | entryNotFound (table key : String)
  | store (cause : StoreError)
  | io (message : String)
deriving DecidableEq, Repr

namespace StoreError

def message : StoreError → String
  | commit message => "Transaction commit failed: " ++ message
  | snapshot path message =>
      "Failed to load snapshot " ++ path ++ ": " ++ message
  | rowNotFound table key => "Row not found: " ++ table ++ ":" ++ key

/-- A refused commit may succeed when it is tried again. -/
def isRetryable : StoreError → Bool
  | commit _ => true
  | _ => false

end StoreError

namespace Failure

def message : Failure → String
  | invalidConfig field message =>
      "Invalid configuration for " ++ field ++ ": " ++ message
  | configFile path message =>
      "Failed to load config file " ++ path ++ ": " ++ message
  | duplicateEntry table key => "Duplicate entry: " ++ table ++ ":" ++ key
  | entryNotFound table key => "Entry not found: " ++ table ++ ":" ++ key
  | store cause => "Store operation failed: " ++ cause.message
  | io message => "IO error: " ++ message

def isRetryable : Failure → Bool
  | store cause => cause.isRetryable
  | _ => false

end Failure

end LinkReconciler
