import LetScript.Command

/-
  The command line on a real disk. The environment variable `LETDEBUG`, set and not empty, asks
  for a listing of tokens and tree.
-/

namespace LetScript

/-- The fault of a system error code, which may be given with its sign changed. -/
def ReadFault.ofCode (code : UInt32) (reason : String) : ReadFault :=
  match min code.toNat (0 - code).toNat with
  | 2 => .notFound
  | 13 => .denied
  | 20 => .notFolder
  | 21 => .isFolder
  | 36 => .nameTooLong
  | n => .other n reason

/-- A system error as a fault of reading. -/
def ReadFault.ofError : IO.Error → ReadFault
  | .noFileOrDirectory _ code reason | .inappropriateType _ code reason
  | .invalidArgument _ code reason | .permissionDenied _ code reason => .ofCode code reason
  | e => .other 5 (toString e)

/-- The bytes of a file on disk. -/
def readFromDisk (path : String) : IO (Except ReadFault (List UInt8)) := do
  try
    let bytes ← IO.FS.readBinFile path
    return .ok bytes.toList
  catch e => return .error (.ofError e)

end LetScript

open LetScript in
/-- Runs the command on its arguments. -/
def main (args : List String) : IO UInt32 := do
  let debug ← IO.getEnv "LETDEBUG"
  let content ← match Command.script? args with
    | some path => readFromDisk path
    | none => pure (.error .notFound)
  let report := Command.run (fun _ => content) (Command.asksListing debug) args
  IO.print report.stdout
  IO.eprint report.stderr
  match report.exit with
  | .status code => return code.toUInt32
  | .escaped failure =>
    IO.eprint failure.report
    return 1
