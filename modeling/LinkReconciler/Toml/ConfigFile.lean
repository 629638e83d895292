import LinkReconciler.Config
import LinkReconciler.FileContent
import LinkReconciler.Toml.Document

/-!
The configuration file. A missing file is no fault; a file that cannot be read, a
text that is not a configuration, and a configuration that is not valid are three
different failures.
-/

namespace LinkReconciler.Config

open Toml

def text? : Node → Option String
  | .value (.text content) => some content
  | _ => none

def bool? : Node → Option Bool
  | .value (.bool value) => some value
  | _ => none

def uint64? : Node → Option UInt64
  | .value (.integer value) =>
      if 0 ≤ value ∧ value < UInt64.size then some (UInt64.ofNat value.toNat)
      else none
  | _ => none

/-- A format is given by its word, or as a table with that one key and no more. -/
def logFormat? : Node → Option LogFormat
  | .value (.text word) => LogFormat.find? word
  | .table _ [(word, .table _ [])] => LogFormat.find? word
  | _ => none

def setting {α : Type} (entries : Entries) (key : String)
    (read : Node → Option α) (default : α) : Option α :=
  match entries.lookup key with
  | some node => read node
  | none => some default

def section? {α : Type} (read : Entries → Option α) : Node → Option α
  | .table _ entries => read entries
  | .value _ => none

def storeSection (entries : Entries) : Option StoreConfig := do
  return {
    lockName := ← setting entries "lock_name" text? "ops_intfd"
    pollTimeoutMs := ← setting entries "poll_timeout_ms" uint64? 1000
    snapshot := ← setting entries "snapshot" (fun node => (text? node).map some)
      none }

def systemSection (entries : Entries) : Option SystemConfig := do
  return { subsystem := ← setting entries "subsystem" text? "base" }

def arbiterSection (entries : Entries) : Option ArbiterConfig := do
  return {
    requireHwReady := ← setting entries "require_hw_ready" bool? false }

def loggingSection (entries : Entries) : Option LoggingConfig := do
  return {
    level := ← setting entries "level" text? "info"
    format := ← setting entries "format" logFormat? .pretty }

/-- Settings that mean nothing are passed over. -/
def ofEntries (entries : Entries) : Option Config := do
  return {
    store := ← setting entries "store" (section? storeSection) {}
    system := ← setting entries "system" (section? systemSection) {}
    arbiter := ← setting entries "arbiter" (section? arbiterSection) {}
    logging := ← setting entries "logging" (section? loggingSection) {} }

def read? (text : String) : Option Config :=
  (Toml.read? text).bind ofEntries

def load (path : String) (content : FileContent) :
    Except Failure (Option Config) :=
  match content with
  | .missing => .ok none
  | .unreadable message => .error (.io message)
  | .bytes _ =>
      match content.text? with
      | none => .error (.io "not UTF-8 text")
      | some text =>
          match read? text with
          | none => .error (.configFile path "not a configuration")
          | some config => config.validate.map fun _ => some config

end LinkReconciler.Config
