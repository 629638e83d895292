import LinkReconciler.Error
import LinkReconciler.Text.Vocabulary

/-!
The configuration of the reconciler.
-/

namespace LinkReconciler

structure StoreConfig where
  lockName : String := "ops_intfd"
  pollTimeoutMs : UInt64 := 1000
  snapshot : Option String := none
deriving DecidableEq, Repr

structure SystemConfig where
  subsystem : String := "base"
deriving DecidableEq, Repr

structure ArbiterConfig where
  requireHwReady : Bool := false
deriving DecidableEq, Repr

inductive LogFormat where
  | pretty
  | compact
  | json
deriving DecidableEq, Repr

structure LoggingConfig where
  level : String := "info"
  format : LogFormat := .pretty
deriving DecidableEq, Repr

structure Config where
  store : StoreConfig := {}
  system : SystemConfig := {}
  arbiter : ArbiterConfig := {}
  logging : LoggingConfig := {}
deriving DecidableEq, Repr

namespace LogFormat

def values : List LogFormat := [pretty, compact, json]

def word : LogFormat → String
  | pretty => "pretty"
  | compact => "compact"
  | json => "json"

def find? : String → Option LogFormat :=
  Vocabulary.find? word values

end LogFormat

namespace Config

/-- Refuses a configuration the reconciler cannot run with; the first fault in
the order of the sections is reported. -/
def validate (config : Config) : Except Failure Unit :=
  if config.store.lockName = "" then
    .error (.invalidConfig "store.lock_name" "must not be empty")
  else if config.store.pollTimeoutMs = 0 then
    .error (.invalidConfig "store.poll_timeout_ms" "must be > 0")
  else if config.system.subsystem = "" then
    .error (.invalidConfig "system.subsystem" "must not be empty")
  else .ok ()

end Config

end LinkReconciler
