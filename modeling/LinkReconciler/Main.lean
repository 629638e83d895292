import LinkReconciler.CommandLine

/-!
The program: it looks files up, waits between passes, and prints.
-/

namespace LinkReconciler.Program

def fileContent (path : String) : IO FileContent := do
  try
    return .bytes (← IO.FS.readBinFile path)
  catch error =>
    match error with
    | .noFileOrDirectory .. => return .missing
    | other => return .unreadable (toString other)

/-- Passes without end, with a wait after each. -/
partial def runForever (session : Session) : IO Unit := do
  let (_, session) := session.pass
  IO.sleep (UInt32.ofNat session.manager.config.store.pollTimeoutMs.toNat)
  runForever session

end LinkReconciler.Program

open LinkReconciler in
def main (arguments : List String) : IO UInt32 := do
  match ← CommandLine.launch Program.fileContent arguments with
  | .exit code output =>
      IO.print output
      return code
  | .run session =>
      Program.runForever session
      return 0
