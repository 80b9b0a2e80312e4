import XmlSchema.CommandLine.Run

/-!
# The program

Reads the schema that the arguments name, prints what the command line prints and ends with its
status.
-/

namespace XmlSchema.CommandLine

/-- The content of a file, or the reason why it cannot be read. -/
def readContent (path : String) : IO (Except String Bytes) :=
  try
    let content ← IO.FS.readBinFile path
    return .ok content.toList
  catch failure =>
    return .error (describe failure)
where
  /-- The reason of a failure, with the system's number where there is one. -/
  describe : IO.Error → String
    | .noFileOrDirectory _ code details => reason code details
    | .permissionDenied _ code details => reason code details
    | .inappropriateType _ code details => reason code details
    | failure => toString failure
  /-- A reason in the system's words. A number whose sign bit is set is a negated one. -/
  reason (code : UInt32) (details : String) : String :=
    let number := if code.toNat < Nat.pow 2 31 then code else 0 - code
    s!"{details.capitalize} (os error {number.toNat})"

end XmlSchema.CommandLine

open XmlSchema in
def main (arguments : List String) : IO UInt32 := do
  let request := CommandLine.Request.ofArguments arguments
  let content ←
    match request.schema? with
    | some path => CommandLine.readContent path
    | none => pure (.ok [])
  let outcome := request.run fun _ => content
  (← IO.getStdout).putStr outcome.output
  (← IO.getStderr).putStr outcome.messages
  return outcome.status.toUInt32
