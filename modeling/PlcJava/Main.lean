import PlcJava.Command.Run

/-! The command on the disk. -/

set_option autoImplicit false

namespace PlcJava.Command

/-- The system gives its number with either sign, and its words with or without a capital. -/
def FileError.ofCode (code : UInt32) (details : String) : FileError :=
  match code.toInt32.toInt.natAbs with
  | 2 => .notFound
  | 20 => .notDirectory
  | 21 => .isDirectory
  | number => .system details.capitalize number

def FileError.ofSystem : IO.Error → FileError
  | .noFileOrDirectory _ code details | .permissionDenied _ code details
  | .alreadyExists _ code details | .inappropriateType _ code details
  | .invalidArgument _ code details | .resourceExhausted _ code details
  | .noSuchThing _ code details => ofCode code details
  | error => .system (toString error) 0

def attempt {α : Type} (work : IO α) : IO (Except FileError α) := do
  match ← work.toBaseIO with
  | .ok value => return .ok value
  | .error error => return .error (FileError.ofSystem error)

def Action.perform : Action → IO Outcome
  | .finish outcome => return outcome
  | .read path next => do (next (← attempt (IO.FS.readBinFile path))).perform
  | .write path contents next => do (next (← attempt (IO.FS.writeFile path contents))).perform

end PlcJava.Command

def main (arguments : List String) : IO UInt32 := do
  let outcome ← (PlcJava.Command.Invocation.ofArguments arguments).action.perform
  IO.print outcome.stdout
  IO.eprint outcome.stderr
  return outcome.status.toUInt32
