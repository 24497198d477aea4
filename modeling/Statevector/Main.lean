import Statevector.Command.Identifier
import Statevector.Command.Respond

/-!
# The command line

The outermost layer: it reads the files and variables that a command line needs, and prints what
the command line leads to.
-/

namespace Statevector.Command

/-- What stands at a path of this machine. -/
def readEntry (path : String) : IO Entry := do
  try
    return .file (← IO.FS.readBinFile path)
  catch
    | .noFileOrDirectory .. => return .missing
    | .inappropriateType _ 20 _ => return .missing
    | .inappropriateType .. => return .directory
    | e => return .unreadable (toString e)

/-- The host of an invocation on this machine. -/
def readHost (args : List String) : IO Host := do
  let home := (← IO.getEnv "HOME").filter (· ≠ "")
  let config ← IO.getEnv "QSTEP_CONFIG"
  let environment : Settings.Environment :=
    { stepDelay := ← IO.getEnv "QSTEP_STEP_DELAY_MS"
      maxQubits := ← IO.getEnv "QSTEP_MAX_QUBITS" }
  let paths := match Invocation.ofArguments args config with
    | .ok i => pathsOf home i
    | .error _ => []
  let entries ← paths.mapM fun path => do return (path, ← readEntry path)
  return {
    entry := fun path => (entries.lookup path).getD .missing
    home, config, environment }

/-- Pause for some milliseconds, in parts that fit a word. -/
def sleep (milliseconds : Nat) : IO Unit := do
  for _ in [0 : milliseconds / 1000000] do IO.sleep 1000000
  IO.sleep (UInt32.ofNat (milliseconds % 1000000))

end Statevector.Command

open Statevector Statevector.Command in
/-- Do what the command line asks for. -/
def main (args : List String) : IO UInt32 := do
  let start ← IO.monoNanosNow
  match respond (← readHost args) args with
  | .error refusal =>
    let out ← if refusal.status = 0 then IO.getStdout else IO.getStderr
    out.putStr (ofLines refusal.lines)
    return UInt32.ofNat refusal.status
  | .ok r =>
    let out ← IO.getStdout
    out.putStr r.announced
    out.flush
    r.pauses.forM fun pause => sleep (min pause longestPause)
    let time := Float.ofNat ((← IO.monoNanosNow) - start) / 1000000
    let run := identifier ((← IO.getRandomBytes 16).toList.map UInt8.toNat)
    out.putStr (r.output.render run time)
    match r.error? with
    | some text => (← IO.getStderr).putStrLn text
    | none => pure ()
    return UInt32.ofNat r.status
