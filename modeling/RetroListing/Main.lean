/-
The command-line program. Listings go to standard output, notices and complaints to standard error.
-/
import RetroListing.CommandLine.Program

namespace RetroListing

/-- The fault that a system error stands for. -/
def faultOf : IO.Error → FileFault
  | .noFileOrDirectory .. => .notFound
  | .inappropriateType _ code _ => if code = 21 then .isDirectory else .notDirectory
  | e@(.invalidArgument _ code _) =>
    -- some calls give the code with a minus sign
    if code = 36 ∨ -code = 36 then .nameTooLong else .other (toString e)
  | e => .other (toString e)

/-- Reads files from disk. -/
def readDisk : FileReader IO := fun path => do
  if path.toList.contains '\x00' then return .error .badName
  try
    return .ok (← IO.FS.readBinFile path)
  catch e =>
    return .error (faultOf e)

/-- Where the user's own settings are, if the system says where settings go. -/
def userSettingsPath : IO (Option String) := do
  let base ← match ← IO.getEnv "XDG_CONFIG_HOME" with
    | some dir =>
      if dir.startsWith "/" then pure (some dir)
      else pure ((← IO.getEnv "HOME").map (· ++ "/.config"))
    | none => pure ((← IO.getEnv "HOME").map (· ++ "/.config"))
  return base.map (· ++ "/retrolisting/config.json")

end RetroListing

open RetroListing CommandLine in
/-- Runs the program: exit code 2 for a command line that asks for nothing, 1 for a failure. -/
def main (words : List String) : IO UInt32 := do
  match Invocation.parse? words with
  | none =>
    IO.eprintln "usage: disasm|notation FILE [OPTION...] | profiles [OPTION...]"
    return 2
  | some invocation =>
    let report ← run readDisk (← userSettingsPath) invocation
    let threshold := Severity.ofVerbosity invocation.verbosity
    for notice in report.log.filter (·.shownAt threshold) do
      IO.eprintln notice.line
    match report.outcome with
    | .ok text =>
      IO.print text
      return 0
    | .error failure =>
      IO.eprintln ("Error: " ++ failure.complaint.paragraphs)
      return 1
