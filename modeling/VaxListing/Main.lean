import VaxListing.Command

set_option relaxedAutoImplicit false
set_option autoImplicit false

/-!
# The program

Reads the image that the command line names, and shows the outcome of the command.
-/

open VaxListing

/-- The operating system's words for the failures that reading a file can meet, by number. -/
def systemText? : Nat → Option String
  | 2 => some "No such file or directory"
  | 5 => some "Input/output error"
  | 13 => some "Permission denied"
  | 20 => some "Not a directory"
  | 21 => some "Is a directory"
  | 24 => some "Too many open files"
  | 36 => some "File name too long"
  | 40 => some "Too many levels of symbolic links"
  | _ => none

/-- A failure by its number, which may be given with a minus sign, wrapped at `2 ^ 32`. -/
def numberedText (code : UInt32) (details : String) : String :=
  let number := min code.toNat (0 - code).toNat
  s!"{(systemText? number).getD details} (os error {number})"

/-- The reason of a failure, in the words and with the number of the operating system. -/
def reasonText : IO.Error → String
  | .alreadyExists _ code details | .otherError code details | .resourceBusy code details
  | .resourceVanished code details | .unsupportedOperation code details
  | .hardwareFault code details | .unsatisfiedConstraints code details
  | .illegalOperation code details | .protocolError code details | .timeExpired code details
  | .interrupted _ code details | .noFileOrDirectory _ code details
  | .invalidArgument _ code details | .permissionDenied _ code details
  | .resourceExhausted _ code details | .inappropriateType _ code details
  | .noSuchThing _ code details => numberedText code details
  | error => toString error

/-- The contents of a file, or the reason why it cannot be read. -/
def readImage (path : String) : IO (Except String (List UInt8)) := do
  try
    return .ok (← IO.FS.readBinFile path).toList
  catch error =>
    return .error (reasonText error)

/-- Runs the command with the words of the command line. -/
def main (words : List String) : IO UInt32 := do
  let contents ← match Command.Request.parse words with
    | .ok (.list arguments) => readImage arguments.image
    | _ => pure (.error "not read")
  let setting := (← IO.getEnv "RUST_LOG").bind (Log.Threshold.ofName? ·)
  let outcome := Command.perform words setting fun _ => contents
  (← IO.getStdout).write ⟨outcome.stdout⟩
  (← IO.getStdout).flush
  for line in outcome.stderr do
    IO.eprintln line
  return outcome.status.toUInt32
