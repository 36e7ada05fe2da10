import TreeQuery.Command.Run

/-!
# The command line

Reads the input that the arguments name, runs the query, and writes what it leaves behind.
-/

namespace TreeQuery.Command

attribute [local instance] corePower

/-- The reasons for which a file cannot be read, by their numbers. -/
def reasons : List (Nat × String) :=
  [(2, "No such file or directory"), (13, "Permission denied"), (20, "Not a directory"),
   (21, "Is a directory"), (36, "File name too long"), (40, "Too many levels of symbolic links")]

/-- A reason with its number, which some calls give negated. -/
def reason (code : UInt32) (details : String) : String :=
  let number := if code.toNat < 2 ^ (31 : Nat) then code.toNat else 2 ^ (32 : Nat) - code.toNat
  (reasons.lookup number).getD details.capitalize ++ s!" (os error {number})"

/-- The text of a system error. -/
def describe (error : IO.Error) : String :=
  match error with
  | .noFileOrDirectory _ code details => reason code details
  | .permissionDenied _ code details => reason code details
  | .inappropriateType _ code details => reason code details
  | .invalidArgument _ code details => reason code details
  | .otherError code details => reason code details
  | error => toString error

/-- Reads a file, or standard input. -/
def deliver (input : Option String) : IO Load.Delivery := do
  try
    match input with
    | some path => return .ok (← IO.FS.readBinFile path).toList
    | none => return .ok (← (← IO.getStdin).readBinToEnd).toList
  catch error =>
    return .error (describe error)

/-- Writes what a run leaves behind. -/
def Output.write (output : Output) : IO Unit := do
  match output with
  | .success line log =>
      for entry in log do
        IO.eprintln entry
      IO.println line
  | .failure line => IO.eprintln line
  | .misuse error => IO.eprintln ("error: " ++ error.message)

end TreeQuery.Command

/-- Runs the query that the arguments ask for. -/
def main (arguments : List String) : IO UInt32 := do
  let output ← TreeQuery.Command.respond TreeQuery.Command.deliver arguments
  output.write
  return UInt32.ofNat output.exitCode
