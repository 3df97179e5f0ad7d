import DocBuild.Build
import DocBuild.CommandLine.Help
import DocBuild.Log.Filter
import DocBuild.Settings.Written

namespace DocBuild.CommandLine

inductive Summary where
  | built (report : BuildReport) (format : String)
  | cleaned (site : Site) (removed : List Path)
  | settingsCreated (path : Path)
  | settingsShown (s : Settings)
  deriving DecidableEq, Repr

namespace Summary

/-- How many stale directories a build deleted; nothing is said about none. -/
def staleLines : Nat → List String
  | 0 => []
  | 1 => ["  Cleaned: 1 stale directory"]
  | n => [s!"  Cleaned: {n} stale directories"]

/-- The lines of a summary; `elapsed` is the length of the run in tenths of a second. -/
def lines (elapsed : Nat) : Summary → List String
  | built report format =>
    let pages := report.site.output.join (Bytes.ofString format)
    ["", "  ✓ Documentation built successfully!", s!"  Output: {pages.display}"]
      ++ staleLines report.removed.length
      ++ [s!"  Time:   {elapsed / 10}.{elapsed % 10}s", ""]
  | cleaned site [] => [s!"  Nothing to clean under {site.root.display}"]
  | cleaned _ removed => removed.map fun p => s!"  Removed: {p.display}"
  | settingsCreated path => [s!"Config initialized at: {path.display}"]
  | settingsShown s => [s.render]

end Summary

inductive Stream where
  | output
  | errors
  deriving DecidableEq, Repr

inductive Notice where
  /-- The builder is started with this command. -/
  | starting (line : String)
  /-- The builder itself has printed. -/
  | passed (stream : Stream) (b : Bytes)
  | log (r : LogRecord)
  | summary (s : Summary)
  /-- The builder did not succeed. -/
  | builderFailed (f : Failure)
  | failed (f : Failure)
  /-- The working directory cannot be told. -/
  | lost (e : SystemError)
  | page (p : Page)
  /-- Help that was not asked for. -/
  | reminder (p : Page)
  | version
  | misuse (l : Level) (e : UsageError)
  deriving DecidableEq, Repr

namespace Notice

/-- Complaints go to the error stream, everything else to the output. -/
def stream : Notice → Stream
  | passed s _ => s
  | summary _ | page _ | version => .output
  | _ => .errors

/-- The text with its further lines set under the first one. -/
def indented (text : String) : String :=
  String.ofList (text.toList.flatMap fun ch => if ch = '\n' then '\n' :: "      ".toList else [ch])

/-- A message under its number. -/
def causeLine (number : Nat) (message : String) : String :=
  s!"   {number}: " ++ indented message

/-- The report of an error: its messages, down to the root cause. -/
def report (causes : List String) : List String :=
  "Error: " :: causes.mapIdx causeLine

/-- The lines that the program itself prints. -/
def lines (v : Variables) (elapsed : Nat) : Notice → List String
  | starting line => ["  → " ++ line]
  | passed .. | log _ => []
  | summary s => s.lines elapsed
  | builderFailed f => ["", s!"  ✗ FAILED: documentation build did not succeed ({f.message})", ""]
  | failed f => report f.causes
  | lost e => report [s!"cannot determine working directory: {e.message}"]
  | page p | reminder p => p.lines v
  | version => ["docbuild 0.1.0"]
  | misuse l e =>
    ["error: " ++ e.message, "", "Usage: " ++ l.usage, "", "For more information, try '--help'."]

/-- The text that the program itself prints. Records are not part of it: their form is the reader's
    choice. -/
def text (v : Variables) (elapsed : Nat) (n : Notice) : String :=
  String.join ((n.lines v elapsed).map (· ++ "\n"))

/-- What is printed. -/
def bytes (v : Variables) (elapsed : Nat) : Notice → Bytes
  | passed _ b => b
  | n => Bytes.ofString (n.text v elapsed)

end Notice

/-- What an event of a command lets the command line print. Reaching a stage is worth a record. -/
def Notice.ofEvent : Event → List Notice
  | .stage s => [.log ⟨.debug, .commandLine, "build stage", [("stage", .text s.name)]⟩]
  | .builder line => [.starting line]
  | .output b => [.passed .output b]
  | .errors b => [.passed .errors b]
  | .log r => [.log r]
  | .phase _ | .done _ => []

/-- Whether a filter lets a notice pass; it holds back nothing but records. -/
def Notice.passes (filter : LogFilter) : Notice → Bool
  | .log r => filter.allows r
  | _ => true

end DocBuild.CommandLine
