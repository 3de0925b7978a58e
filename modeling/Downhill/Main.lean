import Downhill.Command.Run

/-! The program: runs the command that its arguments give, on the files of the system. -/

namespace Downhill.Command

/-- The failure that the system's number stands for. Some calls of the system give the number negated. -/
def failureOfCode (code : UInt32) (text : String) : ReadFailure :=
  match code.toInt32.toInt.natAbs with
  | 2 => .notFound
  | 20 => .notDirectory
  | 21 => .isDirectory
  | 36 => .nameTooLong
  | code => .other code text

/-- The failure that an error of the system stands for. -/
def failureOfError : IO.Error → ReadFailure
  | .noFileOrDirectory .. => .notFound
  | .alreadyExists _ code text => failureOfCode code text
  | .otherError code text => failureOfCode code text
  | .resourceBusy code text => failureOfCode code text
  | .resourceVanished code text => failureOfCode code text
  | .unsupportedOperation code text => failureOfCode code text
  | .hardwareFault code text => failureOfCode code text
  | .unsatisfiedConstraints code text => failureOfCode code text
  | .illegalOperation code text => failureOfCode code text
  | .protocolError code text => failureOfCode code text
  | .timeExpired code text => failureOfCode code text
  | .interrupted _ code text => failureOfCode code text
  | .invalidArgument _ code text => failureOfCode code text
  | .permissionDenied _ code text => failureOfCode code text
  | .resourceExhausted _ code text => failureOfCode code text
  | .inappropriateType _ code text => failureOfCode code text
  | .noSuchThing _ code text => failureOfCode code text
  | .unexpectedEof => .other 0 "unexpected end of file"
  | .userError text => .other 0 text

/-- Reads a file of the system. -/
def readFile (path : String) : IO (Except ReadFailure ByteArray) := do
  if path.toList.contains '\x00' then return .error .nulInPath
  try
    return .ok (← IO.FS.readBinFile path)
  catch error =>
    return .error (failureOfError error)

end Downhill.Command

open Downhill.Command in
def main (arguments : List String) : IO UInt32 := do
  let outcome ← runWith readFile arguments
  IO.print outcome.output
  match outcome with
  | .misused misuse => IO.eprintln s!"error: {misuse.message}"
  | outcome => outcome.errorLine?.forM IO.eprintln
  return UInt32.ofNat outcome.exitCode
