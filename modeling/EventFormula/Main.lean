import EventFormula.CommandLine

/-! The program: the files that the command may look at are read, and its report is printed. -/

namespace EventFormula

/-- Whether an error is known under a number; some calls report the number negated. -/
def isSystemError (code number : UInt32) : Bool := code == number || code == 0 - number

def readText (path : String) : IO (Except ReadError String) := do
  try
    return decodeText (← IO.FS.readBinFile path)
  catch
    | .noFileOrDirectory .. => return .error .missing
    | .inappropriateType _ code _ =>
      return .error (if isSystemError code 20 then .notDirectory else .directory)
    | .invalidArgument _ code report =>
      return .error (if isSystemError code 36 then .tooLong else .other report)
    | .permissionDenied .. => return .error .denied
    | error => return .error (.other (toString error))

def readFiles : List String → IO Files
  | [] => return fun _ => .error .missing
  | path :: paths => do
    let text ← readText path
    let others ← readFiles paths
    return fun other => if other = path then text else others other

end EventFormula

open EventFormula in
def main (arguments : List String) : IO UInt32 := do
  let files ← readFiles (CommandLine.paths arguments)
  let report := CommandLine.run files (← (← IO.getStderr).isTty) arguments
  IO.print report.out
  IO.eprint report.err
  return report.status.toUInt32
