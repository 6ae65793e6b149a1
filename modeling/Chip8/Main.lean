import Chip8.CommandLine.Headless

/-!
The program: it reads its arguments and the file they name, and prints what comes of them.
-/

namespace Chip8.CommandLine

/-- The bytes of a file. -/
def readFile (path : String) : IO (Except ReadError (List UInt8)) := do
  try
    return .ok (← IO.FS.readBinFile path).toList
  catch
    | .noFileOrDirectory .. => return .error .notFound
    | .permissionDenied .. => return .error .permissionDenied
    | .inappropriateType .. => return .error .isDirectory
    | error => throw error

end Chip8.CommandLine

open Chip8.CommandLine in
def main (args : List String) : IO UInt32 := do
  let outcome ←
    match Options.ofArguments args with
    | .error refusal => pure refusal.outcome
    | .ok options => do
        let file ← readFile (String.ofList options.input)
        pure (options.outcome file)
  (← IO.getStdout).putStr outcome.out
  (← IO.getStderr).putStr outcome.err
  return outcome.code
