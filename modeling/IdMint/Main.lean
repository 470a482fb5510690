import IdMint.CommandLine.Run
import Std.Time.DateTime.Timestamp

/-! # The program

Reads the environment and the system time once, runs the command line on them, and prints the
response. -/

namespace IdMint.CommandLine

/-- The environment variables of all options that are set. -/
def readEnvironment : IO (List (String × String)) :=
  OptionName.all.filterMapM fun option => do
    return (← IO.getEnv option.environmentName).map (option.environmentName, ·)

/-- The system time since the Unix epoch, absent where the system clock reads earlier than that. -/
def readSystemTime : IO (Option Duration) := do
  let nanos := (← Std.Time.Timestamp.now).toNanosecondsSinceUnixEpoch.val
  return if nanos < 0 then none else some ⟨nanos.toNat⟩

/-- Prints a response and returns its exit status. -/
def Response.print (response : Response) : IO UInt32 := do
  for line in response.output do IO.println line
  unless response.complaint.isEmpty do IO.eprintln response.complaint
  return response.status

end IdMint.CommandLine

/-- Runs the program with the given arguments. -/
def main (arguments : List String) : IO UInt32 := do
  let environment ← IdMint.CommandLine.readEnvironment
  let now ← IdMint.CommandLine.readSystemTime
  match IdMint.CommandLine.run arguments ⟨(List.lookup · environment), fun _ => now, 2⟩ with
  | none => return 1
  | some response => response.print
