import TextQuery.Command.Run

/-!
# The program

Reads files and standard input for the commands, and prints what they say.
-/
namespace TextQuery

/-- The failure behind an error number, which some operations give with its sign turned. -/
def ReadFailure.ofSystemCode (code : UInt32) : ReadFailure :=
  ofCode (if code < 0x80000000 then code else -code).toNat

def ReadFailure.ofError : IO.Error → ReadFailure
  | .noFileOrDirectory _ code _ | .permissionDenied _ code _ | .inappropriateType _ code _
  | .resourceExhausted _ code _ | .noSuchThing _ code _ | .otherError code _ => ofSystemCode code
  | .invalidArgument _ code _ => if code = 22 then .zeroInName else ofSystemCode code
  | _ => .notText

def readFileText (path : String) : IO (Except ReadFailure String) := do
  try
    return .ok (← IO.FS.readFile path)
  catch e =>
    return .error (.ofError e)

def readStandardInput : IO String := do
  (← IO.getStdin).readToEnd

end TextQuery

def main (args : List String) : IO UInt32 := do
  let exit ← TextQuery.runProgram TextQuery.readFileText TextQuery.readStandardInput args
  IO.print exit.out
  IO.eprint exit.err
  return exit.code.toUInt32
