import Sidelink.CommandLine

/-!
The program: it reads a scenario, runs it and prints or writes the report.
-/
open Sidelink CommandLine

/-- The reason of a failure, by the code of the system where there is one. -/
def reasonOf (error : IO.Error) : String :=
  match error with
  | .noFileOrDirectory _ code details => systemReason code.toNat details
  | .inappropriateType _ code details => systemReason code.toNat details
  | .permissionDenied _ code details => systemReason code.toNat details
  | .invalidArgument _ code details => systemReason code.toNat details
  | .resourceExhausted _ code details => systemReason code.toNat details
  | other => toString other

/-- Tells what a run leaves behind, after its file is written. -/
def conclude (completion : Completion) : IO UInt32 := do
  let written : Except String Unit ←
    match completion.file with
    | none => pure (.ok ())
    | some (path, text) =>
      try
        IO.FS.writeFile path text
        pure (.ok ())
      catch error => pure (.error (reasonOf error))
  let completion := match written with
    | .ok () => completion
    | .error reason => failure reason []
  IO.print completion.output
  IO.eprint completion.errors
  return UInt32.ofNat completion.exitCode

def main (arguments : List String) : IO UInt32 := do
  match parse arguments with
  | .help =>
    IO.print helpText
    return 0
  | .version =>
    IO.print versionText
    return 0
  | .misuse =>
    IO.eprint misuseText
    return 2
  | .run options =>
    let contents : Except String String ←
      try
        let data ← IO.FS.readBinFile options.config
        pure ((String.fromUTF8? data).elim (.error "stream did not contain valid UTF-8") .ok)
      catch error => pure (.error (reasonOf error))
    conclude (execute options (Scenario.load options.config contents))
