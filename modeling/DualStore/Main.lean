import DualStore.Engine

/-!
Contract: the command line.

Owns: the variables of the process as settings, the start, and the report of a failure with its
exit code. This build reaches no network, so that every party outside counts as unreachable.

Does not own: any decision; those are made by the modules below.
-/

namespace DualStore

/-- The end of a run from the variables that are set. -/
def runService (lookup : Lookup) : Except StartFailure Unit :=
  match Settings.ofLookup lookup with
  | .error error => .error (.settings error)
  | .ok settings => (Outside.unreachable.start settings ()).1.map fun _ => ()

end DualStore

def main : IO UInt32 := do
  let values ← DualStore.Settings.keys.filterMapM fun key => do
    return (← IO.getEnv key).map (key, ·)
  match DualStore.runService fun key => (values.find? (·.1 == key)).map (·.2) with
  | .ok () => return 0
  | .error failure =>
      IO.eprintln failure.report
      return 1
