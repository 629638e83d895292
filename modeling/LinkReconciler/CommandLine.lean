import LinkReconciler.Json.SnapshotFile
import LinkReconciler.Manager.Session
import LinkReconciler.Report
import LinkReconciler.Toml.ConfigFile

/-!
The command line: two options, then what to do. `dump` reconciles the snapshot
once and prints the report; `run` goes on until it is interrupted, and is what is
done where nothing is said.
-/

namespace LinkReconciler.CommandLine

structure OptionName where
  short : Char
  long : String
deriving DecidableEq

abbrev Given := List (OptionName × String)

inductive Command where
  | run
  | dump (interface : Option String)
deriving DecidableEq, Repr

structure Invocation where
  config : String
  logLevel : Option String
  command : Command
deriving DecidableEq, Repr

inductive Stop where
  | badArguments
  | help
deriving DecidableEq, Repr

def configOption : OptionName := ⟨'c', "config"⟩

def logLevelOption : OptionName := ⟨'l', "log-level"⟩

def interfaceOption : OptionName := ⟨'i', "interface"⟩

def defaultConfigPath : String := "/etc/sonic/intfd.toml"

/-! ## Options -/

inductive Argument where
  | escape
  | long (name : String) (attached : Option String)
  | short (name : Char) (attached : Option String)
  | plain (text : String)
deriving DecidableEq, Repr

def Argument.read (text : String) : Argument :=
  match text.toList with
  | ['-', '-'] => .escape
  | '-' :: '-' :: rest =>
      let name := rest.takeWhile (· ≠ '=')
      .long (String.ofList name)
        (match rest.drop name.length with
          | _ :: value => some (String.ofList value)
          | [] => none)
  | '-' :: name :: rest =>
      .short name
        (match rest with
          | [] => none
          | '=' :: value => some (String.ofList value)
          | value => some (String.ofList value))
  | _ => .plain text

def give (given : Given) (option : OptionName) (value : String) :
    Except Stop Given :=
  if given.any fun entry => entry.1 = option then .error .badArguments
  else .ok (given ++ [(option, value)])

def isHelp : Argument → Bool
  | .long name none => name = "help"
  | .short name _ => name = 'h'
  | _ => false

def isVersion : Argument → Bool
  | .long name none => name = "version"
  | .short name _ => name = 'V'
  | _ => false

/-- The option an argument names, and the value attached to it. -/
def option? (options : List OptionName) :
    Argument → Option (OptionName × Option String)
  | .long name attached =>
      (options.find? (·.long = name)).map fun option => (option, attached)
  | .short name attached =>
      (options.find? (·.short = name)).map fun option => (option, attached)
  | _ => none

/-- Reads options up to the first argument that is none, and gives that argument
and those after it. No argument may follow an escape. -/
def readOptions (options : List OptionName) (versioned : Bool) :
    Given → List String → Except Stop (Given × List String)
  | given, [] => .ok (given, [])
  | given, text :: rest =>
      let argument := Argument.read text
      match argument with
      | .plain _ => .ok (given, text :: rest)
      | .escape => if rest.isEmpty then .ok (given, []) else .error .badArguments
      | _ =>
          match option? options argument with
          | some (option, some value) =>
              match give given option value with
              | .ok given => readOptions options versioned given rest
              | .error stop => .error stop
          | some (option, none) =>
              match rest with
              | [] => .error .badArguments
              | value :: rest =>
                  match Argument.read value, give given option value with
                  | .plain _, .ok given =>
                      readOptions options versioned given rest
                  | _, _ => .error .badArguments
          | none =>
              if isHelp argument || versioned && isVersion argument then
                .error .help
              else .error .badArguments

def value? (given : Given) (option : OptionName) : Option String :=
  given.lookup option

def isHelpTopic (topic : List String) : Bool :=
  match topic with
  | [] => true
  | [command] => ["run", "dump", "help"].contains command
  | _ => false

def readCommand : List String → Except Stop Command
  | [] => .ok .run
  | "run" :: rest => do
      let (_, rest) ← readOptions [] false [] rest
      if rest.isEmpty then return .run else throw .badArguments
  | "dump" :: rest => do
      let (given, rest) ← readOptions [interfaceOption] false [] rest
      if rest.isEmpty then return .dump (value? given interfaceOption)
      else throw .badArguments
  | "help" :: topic =>
      .error (if isHelpTopic topic then .help else .badArguments)
  | _ => .error .badArguments

def read (arguments : List String) : Except Stop Invocation := do
  let (given, rest) ←
    readOptions [configOption, logLevelOption] true [] arguments
  let config := (value? given configOption).getD defaultConfigPath
  if config = "" then throw .badArguments
  let command ← readCommand rest
  return { config, logLevel := value? given logLevelOption, command }

/-! ## Execution -/

inductive Launch where
  | exit (code : UInt32) (output : String)
  | run (session : Session)

def helpText : String :=
  "Options: -c FILE, -l LEVEL. Commands: run, dump [-i NAME].\n"

def openStore {m : Type → Type} [Monad m] (fileAt : String → m FileContent)
    (config : Config) : m (Except StoreError Store) :=
  match config.store.snapshot with
  | none => pure (.ok {})
  | some path => do
      let content ← fileAt path
      return (Snapshot.load path content).map Store.ofSnapshot

def execute (session : Session) : Command → Launch
  | .run => .run session
  | .dump interface =>
      let (_, session) := session.pass
      .exit 0 (Report.ofRegistry session.manager.registry interface)

/-- Reads the arguments, the configuration and the snapshot, and carries out the
command. Files are looked up by `fileAt`. -/
def launch {m : Type → Type} [Monad m] (fileAt : String → m FileContent)
    (arguments : List String) : m Launch :=
  match read arguments with
  | .error .badArguments => pure (.exit 2 "")
  | .error .help => pure (.exit 0 helpText)
  | .ok invocation => do
      let content ← fileAt invocation.config
      match Config.load invocation.config content with
      | .error _ => return .exit 1 ""
      | .ok loaded =>
          let config := loaded.getD {}
          match ← openStore fileAt config with
          | .error _ => return .exit 1 ""
          | .ok store =>
              return execute ⟨store, .ofConfig config⟩ invocation.command

end LinkReconciler.CommandLine
