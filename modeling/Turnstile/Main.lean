import Std.Time.DateTime.Timestamp
import Turnstile.CommandLine.Run

/-!
# The command line

The program itself: it asks the system for what a run depends on, and prints what
the run leaves behind, each line of the log at its time.
-/

namespace Turnstile.CommandLine

/-- The number of an error of the system. -/
def systemErrorOf : IO.Error → SystemError
  | .noFileOrDirectory _ code _ => ⟨code.toNat⟩
  | .permissionDenied _ code _ => ⟨code.toNat⟩
  | .inappropriateType _ code _ => ⟨code.toNat⟩
  | .invalidArgument _ code _ => ⟨code.toNat⟩
  | _ => ⟨5⟩

/-- What a path leads to. -/
def readFile (path : String) : IO FileContent := do
  try
    return .bytes (← IO.FS.readBinFile path)
  catch e => return .failure (systemErrorOf e)

/-- Draw a salt. -/
def drawSalt : IO (Except SystemError Salt) := do
  try
    let bytes ← IO.getRandomBytes 16
    return (Salt.ofBytes? bytes.toList).elim (.error ⟨5⟩) .ok
  catch e => return .error (systemErrorOf e)

/-- The present time, in nanoseconds since the epoch. -/
def presentTime : IO Int := do
  return (← Std.Time.Timestamp.now).toNanosecondsSinceUnixEpoch.val

/-- Print the log of a run, each line at its time. -/
def printLog (t : Transcript) : IO Unit := do
  let out ← IO.getStdout
  let mut shown := Instant.origin
  for (time, n) in t.log do
    if shown.nanos < time.nanos then
      IO.sleep (UInt32.ofNat ((time.nanos - shown.nanos) / 1000000))
      shown := time
    out.putStrLn (t.line n)
    out.flush

end Turnstile.CommandLine

open Turnstile.CommandLine in
/-- The command line. -/
def main (args : List String) : IO UInt32 := do
  let path := match Arguments.parse args with
    | .ok a => a.config
    | .error _ => none
  let content ← (path.mapM readFile : IO (Option Turnstile.FileContent))
  let env : Environment :=
    { files := fun _ => content.getD .missing
      logDirectives := ← IO.getEnv "RUST_LOG"
      wall := ← presentTime
      salt := ← drawSalt }
  let t := run args env
  for line in t.printed do IO.println line
  printLog t
  for line in t.errors do IO.eprintln line
  return UInt32.ofNat t.exitCode
