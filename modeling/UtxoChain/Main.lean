import UtxoChain.CommandLine.Report

/-!
# The command line program

Reads the arguments and the parameter file, prints what the command reports, and fails with status 2
where the arguments make no sense and with status 1 where the command fails.
-/

open UtxoChain UtxoChain.CommandLine

/-- The arguments that the program takes. -/
def usage : String :=
  String.intercalate "\n" [
    "usage: tx decode HEX",
    "       tx sighash HEX --amount N [--input N] [--script TEXT] [--hash-type N]",
    "       script run TEXT | script hex TEXT | script text HEX",
    "       header decode HEX | header retarget --target HEX --time-diff N",
    "       block decode HEX",
    "everywhere: [--params FILE]"]

/-- The number of a system error, which some calls hand over negated. -/
def systemNumber (code : UInt32) : UInt32 :=
  if code < 0x80000000 then code else 0 - code

/-- Why a file cannot be read, with the number of the system error where there is one. -/
def reasonOf : IO.Error → String
  | .noFileOrDirectory _ code details | .inappropriateType _ code details
  | .permissionDenied _ code details =>
    let number := systemNumber code
    details.capitalize ++ s!" (os error {number})"
  | error => toString error

/-- The content of a file, or why it cannot be read. -/
def contentOf (path : String) : IO (Except String String) := do
  try
    return .ok (← IO.FS.readFile path)
  catch error => return .error (reasonOf error)

/-- Runs the command line. -/
def main (arguments : List String) : IO UInt32 := do
  match Invocation.parse? arguments with
  | none => do
    IO.eprintln usage
    return 2
  | some invocation => do
    let content ← match invocation.paramsPath with
      | some path => contentOf path
      | none => pure (.ok "")
    match invocation.output fun _ => content with
    | .ok text => do
      IO.print text
      return 0
    | .error error => do
      IO.eprintln ("Error: " ++ error.message)
      return 1
