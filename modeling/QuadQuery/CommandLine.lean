import QuadQuery.Query
import QuadQuery.Settings.Environment

/-!
# The command line

The program takes a file of statements and a file with a query, and prints the solutions, each
as a JSON object in a line. What it does is a function of the files, the environment and the
arguments (`CommandLine.run`).
-/

namespace QuadQuery

/-! ## Solutions as JSON -/

namespace Json

/-- The form of a character inside a JSON text. -/
def escaped (c : Char) : List Char :=
  match c with
  | '"' => ['\\', '"']
  | '\\' => ['\\', '\\']
  | '\x08' => ['\\', 'b']
  | '\t' => ['\\', 't']
  | '\n' => ['\\', 'n']
  | '\x0c' => ['\\', 'f']
  | '\r' => ['\\', 'r']
  | c =>
    if c.toNat < 0x20 then
      '\\' :: 'u' :: '0' :: '0' :: (c.toNat / 16).digitChar :: [(c.toNat % 16).digitChar]
    else [c]

/-- A text in quotes, with quotes, backslashes and control characters escaped. -/
def quoted (s : String) : String :=
  "\"" ++ String.ofList (s.toList.flatMap escaped) ++ "\""

end Json

/-- A solution as a JSON object that gives each variable the text of its term. -/
def Solution.json (s : Solution) : String :=
  let entry (e : Variable × Term) : String := Json.quoted e.1.name ++ ":" ++ Json.quoted e.2.text
  "\x7b" ++ ",".intercalate (s.entries.map entry) ++ "\x7d"

namespace CommandLine

/-- How the program is called. -/
def usage : String := "usage: " ++ programName ++ " <data-file> <algebra-file>"

/-- The file that settings are read from, if it is there. -/
def settingsFile : String := programName ++ ".toml"

/-- A file of this name, which has no ending to tell its format, stands in the way of the
settings file. -/
def bareSettingsFile : String := programName

/-- The content of a file that can be read. -/
abbrev Files := String → Option String

/-- What the program is started with. -/
structure Call where
  files : Files
  environment : List EnvironmentVariable
  arguments : List String

/-- Why the program fails. -/
inductive Fault where
  | usage
  | failed (failure : Failure)

def Fault.message : Fault → String
  | .usage => CommandLine.usage
  | .failed failure => failure.message

/-- The lines that the program prints, and how it ends. Lines stay printed when a later step
fails. -/
structure Report where
  lines : List String
  result : Except Fault Unit

/-- The content of a file. -/
def Files.read (files : Files) (path : String) : Except Failure String :=
  match files path with
  | some content => .ok content
  | none => .error (.unreadable path)

/-- The settings of a call. -/
def settings (call : Call) : Except Failure Settings :=
  let text := if (call.files bareSettingsFile).isSome then none else call.files settingsFile
  Settings.load text call.environment

/-- The query over the statements that a call asks for. -/
def prepare (files : Files) (settings : Settings) (data query : String) :
    Except Failure (Dataset × Query) := do
  let (_, d) ← ((∅ : Dataset).load (← files.read data)).mapError .text
  let a ← (Algebra.ofText (← files.read query)).mapError .text
  return (d, ← Query.start d settings a)

/-- Runs the program. -/
def run (call : Call) : Report :=
  match settings call with
  | .error failure => ⟨[], .error (.failed failure)⟩
  | .ok settings =>
    match call.arguments with
    | [data, query] =>
      match prepare call.files settings data query with
      | .error failure => ⟨[], .error (.failed failure)⟩
      | .ok (d, query) =>
        let (rows, result, _) := query.drain { dataset := d }
        ⟨rows.map Solution.json, result.mapError .failed⟩
    | _ => ⟨[], .error .usage⟩

end CommandLine

end QuadQuery
