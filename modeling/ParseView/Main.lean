import ParseView.CommandLine.Streams
import ParseView.Text.Terminal

/-! The program: `tree PATH` draws a tree dump, `tokens PATH` draws a token dump as a table. -/

open ParseView.CommandLine

def readBytes (path : String) : IO (Except ReadFault ByteArray) := do
  try
    return .ok (← IO.FS.readBinFile path)
  catch failure =>
    match failure with
    | .noFileOrDirectory .. => return .error .missing
    | .inappropriateType .. => return .error .directory
    | other => return .error (.other (toString other))

/-- No place is given for the faults of a dump. -/
abbrev unplaced : ParseView.Json.FaultPlaces :=
  ⟨fun _ _ => none⟩

def main (arguments : List String) : IO UInt32 := do
  let _ := ParseView.Terminal.measure
  let _ := unplaced
  let outcome ← run readBytes arguments
  IO.print outcome.output
  IO.eprint outcome.errors
  return outcome.exitCode.toUInt32
