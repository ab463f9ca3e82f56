import Whereabouts.Inspect

/-! # The command line

Reads the settings file, if one is named, and prints what `Inspect.execute` says. -/

namespace Whereabouts

/-- The number of an error of the system. -/
def numberOf? : IO.Error → Option UInt32
  | .noFileOrDirectory _ n _ | .permissionDenied _ n _ | .inappropriateType _ n _
  | .invalidArgument _ n _ | .resourceExhausted _ n _ | .noSuchThing _ n _
  | .alreadyExists _ n _ | .interrupted _ n _ | .hardwareFault n _ | .resourceBusy n _
  | .resourceVanished n _ | .unsupportedOperation n _ | .unsatisfiedConstraints n _
  | .illegalOperation n _ | .protocolError n _ | .timeExpired n _ | .otherError n _ => some n
  | .unexpectedEof | .userError _ => none

/-- The cause of an error.  Its number may be negated. -/
def failureOf (error : IO.Error) : ReadFailure :=
  match (numberOf? error).bind fun n => FileFailure.ofNumber? (min n (-n)).toNat with
  | some failure => .file failure
  | none => .other (toString error)

/-- The contents of a file, or why it could not be read. -/
def readSettingsFile (path : String) : IO (Except ReadFailure Bytes) := do
  try
    return .ok (← IO.FS.readBinFile path).toList
  catch error => return .error (failureOf error)

/-- The contents of the settings file that the arguments name.  Without such a name nobody asks
for them. -/
def readNamedSettings (args : List String) : IO (Except ReadFailure Bytes) :=
  match Invocation.ofArgs args with
  | .ok { settingsPath := some path, .. } => readSettingsFile path
  | _ => return .error (.file .notFound)

end Whereabouts

def main (args : List String) : IO UInt32 := do
  let contents ← Whereabouts.readNamedSettings args
  let outcome := Whereabouts.Inspect.execute args fun _ => contents
  IO.print outcome.output
  IO.eprint outcome.errorOutput
  return outcome.exitCode
