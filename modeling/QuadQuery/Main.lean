import QuadQuery.CommandLine

/-!
# The program

Reads the files of a call, runs it and prints its report.
-/

open QuadQuery

/-- The content of a file, unless it cannot be read. -/
def readFile? (path : String) : IO (Option String) := do
  try
    return some (← IO.FS.readFile path)
  catch _ =>
    return none

/-- The variables of the environment that hold settings under their usual names. -/
def settingVariables : IO (List EnvironmentVariable) := do
  let mut found := []
  for setting in Settings.names do
    let name := (EnvironmentVariable.mark ++ setting).toUpper
    if let some content ← IO.getEnv name then
      found := found ++ [(name, content)]
  return found

def main (arguments : List String) : IO UInt32 := do
  let paths := CommandLine.bareSettingsFile :: CommandLine.settingsFile :: arguments
  let contents ← paths.mapM fun path => return (path, ← readFile? path)
  let files (path : String) : Option String := (contents.lookup path).join
  let report := CommandLine.run { files, environment := ← settingVariables, arguments }
  for line in report.lines do
    IO.println line
  match report.result with
  | .ok () => return 0
  | .error fault =>
    IO.eprintln fault.message
    return 1
