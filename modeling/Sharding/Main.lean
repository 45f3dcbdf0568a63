import Sharding.CommandLine.Run
import Std.Time.DateTime.Timestamp
/-!
# The command line

Reads the document and the clock, and prints what the run gave.
-/

open Sharding

/-- The content of the document that the arguments name, if it can be read. -/
def documentContent (arguments : List String) : IO (Option String) := do
  match CommandLine.Request.ofArguments arguments with
  | .route given =>
    try
      some <$> IO.FS.readFile given.config
    catch _ => return none
  | _ => return none

def main (arguments : List String) : IO UInt32 := do
  let content ← documentContent arguments
  let now ← Std.Time.Timestamp.now
  let millis := now.toMillisecondsSinceUnixEpoch.toInt
  let outcome := CommandLine.outcome (fun _ => content) [millis] arguments
  for text in outcome.printed do
    IO.println text
  match outcome.fault with
  | some fault => IO.eprintln fault.message
  | none => pure ()
  return outcome.status.toUInt32
