import DocBuild.CommandLine.Report
import DocBuild.Settings.Store

namespace DocBuild.CommandLine

namespace Request

/-- The settings in the file that was named, else in the user's home; a builder that was named
    replaces the configured one. -/
def settings (r : Request) (v : Variables) : Work Settings := do
  let s ← match r.options.config with
    | some path => Settings.load path
    | none => Settings.loadHome (← Work.ofExcept (Settings.knownHome v.home))
  match r.options.sphinx with
  | none => return s
  | some program => do
    Work.log ⟨.debug, .commandLine, "builder program overridden from command line",
      [("program", .text program)]⟩
    return { s with builder.program := program }

def locator (r : Request) (s : Settings) : Locator :=
  match r.options.root with
  | some root => .given root
  | none => .asked s.vcs.program

/-- Where a new settings file goes. -/
def newSettingsFile (r : Request) (v : Variables) : Except Failure Path :=
  match r.options.config with
  | some path => .ok path
  | none => return Settings.homeFile (← Settings.knownHome v.home)

/-- Does something where the process works. That directory may have been deleted; then nothing is
    done, and the error is the one of asking for it. -/
def inDirectory (act : Path → Work Summary) : Work (Except SystemError Summary) := do
  let c ← read
  if (← Work.tree).isDirectory c.directory then return .ok (← act c.directory.path)
  else return .error .noEntry

def build (r : Request) (s : Settings) : Work (Except SystemError Summary) :=
  inDirectory fun directory => do
    Work.log ⟨.info, .commandLine, "building documentation",
      [("builder", .text s.builder.program), ("format", .text s.builder.format)]⟩
    let report ← DocBuild.build (r.locator s).root directory s.layout s.builder
    return .built report s.builder.format

def clean (r : Request) (s : Settings) : Work (Except SystemError Summary) :=
  inDirectory fun directory => do
    let (site, removed) ← DocBuild.clean (r.locator s).root directory s.layout
    return .cleaned site removed

/-- Carries out a request. It ends with a summary, unless something fails or the directory that the
    process works in cannot be told. -/
def perform (r : Request) (v : Variables) : Work (Except SystemError Summary) := do
  match r.action with
  | .build => r.build (← r.settings v)
  | .clean => r.clean (← r.settings v)
  | .initSettings => do
    let path ← Settings.init (← Work.ofExcept (r.newSettingsFile v))
    return .ok (.settingsCreated path)
  | .showSettings => return .ok (.settingsShown (← r.settings v))

/-- The user's own filter when it can be read, else the one for the verbosity. -/
def logFilter (r : Request) (v : Variables) : LogFilter :=
  ((v.logFilter.bind Bytes.toString?).bind LogFilter.parse?).getD
    (LogFilter.ofVerbosity r.options.verbosity)

end Request

structure Outcome where
  status : Nat
  notices : List Notice
  tree : FileTree
  /-- How the records among the notices are to be written. -/
  logFormat : LogFormat := .text

namespace Outcome

/-- Help and version are answers; everything else that keeps a command from running is a mistake. -/
def ofStop (t : FileTree) : Stop → Outcome
  | .page p => { status := 0, notices := [.page p], tree := t }
  | .version => { status := 0, notices := [.version], tree := t }
  | .misuse l e => { status := 2, notices := [.misuse l e], tree := t }
  | .bare l => { status := 2, notices := [.reminder (.level l)], tree := t }

/-- How a failure is told: the builder has explained itself already. -/
def closing (f : Failure) : Notice :=
  if f.isBuilder then .builderFailed f else .failed f

section

variable (result : EStateM.Result Failure Session (Except SystemError Summary))

def statusOf : Nat :=
  match result with
  | .ok (.ok _) _ => 0
  | .ok (.error _) _ => 1
  | .error f _ => f.exitStatus

/-- The notice that ends a run. -/
def last : Notice :=
  match result with
  | .ok (.ok s) _ => .summary s
  | .ok (.error e) _ => .lost e
  | .error f _ => closing f

/-- The session that a piece of work leaves, whether it succeeded or failed. -/
def sessionOf : Session :=
  match result with
  | .ok _ session | .error _ session => session

/-- The notices of the events, followed by the last one. -/
def noticesOf : List Notice :=
  (sessionOf result).events.flatMap Notice.ofEvent ++ [last result]

end

def printed (o : Outcome) (stream : Stream) (v : Variables) (elapsed : Nat) : Bytes :=
  (o.notices.filter (·.stream = stream)).flatMap (·.bytes v elapsed)

def records (o : Outcome) : List LogRecord :=
  o.notices.filterMap fun
    | .log r => some r
    | _ => none

end Outcome

/-- Carries out a request on a tree. Of the records only those are kept that the filter lets pass.
    -/
def Request.outcome (r : Request) (v : Variables) (c : Context) (t : FileTree) : Outcome :=
  let result := (r.perform v).run c { tree := t }
  { status := Outcome.statusOf result
    notices := (Outcome.noticesOf result).filter (·.passes (r.logFilter v))
    tree := (Outcome.sessionOf result).tree
    logFormat := r.options.logFormat.getD .text }

/-- A run of the program: its arguments are read and the request they make is carried out. -/
def run (v : Variables) (arguments : List Bytes) (c : Context) (t : FileTree) : Outcome :=
  match Request.ofArguments v arguments with
  | .error stop => Outcome.ofStop t stop
  | .ok r => r.outcome v c t

end DocBuild.CommandLine
