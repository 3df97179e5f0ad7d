import DocBuild.Settings.Decoding
import DocBuild.Settings.Written
import DocBuild.Work

namespace DocBuild.Settings

/-- The home directory of a user: what the environment says, if it says anything, else what the
    account says. -/
def homeOf (environment : Option Path) (account : Path) : Path :=
  match environment with
  | none | some [] => account
  | some home => home

/-- The home directory where one is needed. -/
def knownHome : Option Path → Except Failure Path
  | some home => .ok home
  | none => .error (.settings "could not determine home directory")

def homeDirectory (home : Path) : Path :=
  home.join (Bytes.ofString ".docbuild")

/-- The settings file that is used when none is named. -/
def homeFile (home : Path) : Path :=
  (homeDirectory home).join (Bytes.ofString "docbuild.toml")

def load (p : Path) : Work Settings := do
  let c ← read
  match (← Work.tree).readText c.directory p with
  | .error e => throw (.file p e)
  | .ok text =>
    match Settings.parse text with
    | .error e => throw (.settings s!"failed to parse {p.display}: {e.report text}")
    | .ok settings => do
      Work.log ⟨.debug, .settings, "loaded config file", [("path", .text (Text.quotedBytes p))]⟩
      return settings

/-- The settings of a user; the defaults while there is no settings file. -/
def loadHome (home : Path) : Work Settings := do
  let c ← read
  let p := homeFile home
  if (← Work.tree).pathExists c.directory p then load p
  else
    Work.log ⟨.debug, .settings, "config file not found, using defaults",
      [("path", .text (Text.quotedBytes p))]⟩
    return {}

/-- Creates a settings file with the defaults, and the directories above it. A path that already
    names something is refused. -/
def init (p : Path) : Work Path := do
  let c ← read
  if (← Work.tree).pathExists c.directory p then
    throw (.settings s!"{p.display} already exists; remove it first to regenerate defaults")
  if let some parent := p.parent? then
    Work.onTree parent fun t => t.makePath c.directory parent
  Work.onTree p fun t =>
    match t.writeFile c.directory p (Bytes.ofString (render {})) with
    | .ok t => (t, .ok ())
    | .error e => (t, .error e)
  Work.log ⟨.info, .settings, "created default config file", [("path", .text (Text.quotedBytes p))]⟩
  return p

end DocBuild.Settings
