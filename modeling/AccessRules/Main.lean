import AccessRules.CommandLine.Session

namespace AccessRules.CommandLine

/-- A duration with the unit that leaves one to three digits before the point. -/
def durationText (nanoseconds : Nat) : String :=
  let (unit, label) :=
    if nanoseconds < 1000 then (1, "ns")
    else if nanoseconds < 1000000 then (1000, "µs")
    else if nanoseconds < 1000000000 then (1000000, "ms")
    else (1000000000, "s")
  let digits := Nat.toDigits 10 (unit + nanoseconds % unit) |>.drop 1
  let fraction := (digits.reverse.dropWhile (· == '0')).reverse
  toString (nanoseconds / unit) ++
    (if fraction.isEmpty then "" else "." ++ String.ofList fraction) ++ label

def systemReason : IO.Error → String
  | .noFileOrDirectory .. => "No such file or directory (os error 2)"
  | .inappropriateType .. => "Is a directory (os error 21)"
  | other => toString other

partial def readAll (stream : IO.FS.Stream) (bytes : ByteArray) : IO ByteArray := do
  let chunk ← stream.read 65536
  if chunk.isEmpty then return bytes else readAll stream (bytes ++ chunk)

/-- Reads no more than the request needs. -/
def surroundings (terminal : Bool) (request : Except ArgumentFault Request) : IO Surroundings := do
  let nothing : Surroundings := ⟨.empty, fun _ => .error "", terminal, ""⟩
  match request with
  | .ok (.run settings) =>
      match settings.input with
      | none => return { nothing with standardInput := ← readAll (← IO.getStdin) .empty }
      | some path =>
          let content ← try
              pure (Except.ok (← IO.FS.readBinFile path))
            catch reason => pure (Except.error (systemReason reason))
          return { nothing with file := fun _ => content }
  | _ => return nothing

def emit (outcome : Outcome) : IO UInt32 := do
  (← IO.getStdout).putStr outcome.output
  (← IO.getStderr).putStr outcome.errors
  return outcome.exitCode.toUInt32

end AccessRules.CommandLine

open AccessRules.CommandLine in
def main (arguments : List String) : IO UInt32 := do
  let terminal ← (← IO.getStderr).isTty
  let found ← surroundings terminal (Request.ofArguments terminal arguments)
  let start ← IO.monoNanosNow
  let untimed ← IO.lazyPure fun _ => run found arguments
  if untimed.exitCode ≠ 0 then emit untimed
  else
    let elapsed := durationText ((← IO.monoNanosNow) - start)
    emit (run { found with elapsed := elapsed } arguments)
