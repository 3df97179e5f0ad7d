import DocBuild.CommandLine.Arguments

namespace DocBuild.CommandLine

def Parameter.about : Parameter → String
  | config => "Config file (defaults to ~/.docbuild/docbuild.toml)"
  | root => "Use this directory as the repository root instead of asking git"
  | sphinx => "Documentation builder executable (overrides `builder.program`)"
  | logFormat => "Log format: text (default) or json"

def Switch.about : Switch → String
  | verbose => "Verbosity level (-v, -vv)"
  | help => "Print help"
  | version => "Print version"

namespace Page

/-- Two columns, the left one as wide as its longest entry. -/
def columns (rows : List (String × String)) : List String :=
  let width := rows.foldl (fun w row => max w row.1.length) 0
  rows.map fun (left, right) =>
    "  " ++ left ++ "".pushn ' ' (width - left.length + 2) ++ right

def helpAbout : String :=
  "Print this message or the help of the given subcommand(s)"

/-- The commands of a level, and `help` where there are any. -/
def commands (level : Level) : List (String × String) :=
  if level.isDivided then
    level.children.map (fun (word, child) => (word, child.about)) ++ [("help", helpAbout)]
  else []

/-- A value of the environment; further lines of it are set under the right column. -/
def fromEnvironment (name : String) (value : Option Bytes) : String :=
  let shown := (Utf8.lossy (value.getD [])).replace "\n" ("\n" ++ "".pushn ' ' 33)
  s!"[env: {name}={shown}]"

def remarks (v : Variables) : Parameter → List String
  | .config => [fromEnvironment "DOCBUILD_CONFIG" v.config]
  | .sphinx => [fromEnvironment "SPHINXBUILD" v.sphinx]
  | .root => []
  | .logFormat => ["[default: text]", "[possible values: text, json]"]

/-- The options of a level; those without a letter are set under the long names. -/
def options (v : Variables) (level : Level) : List (String × String) :=
  Parameter.all.map (fun p =>
      ("    " ++ p.shown, " ".intercalate (p.about :: remarks v p)))
    ++ (Switch.ofLevel level).map (fun s => (s!"-{s.letter}, {s.shown}", s.about))

/-- The lines of a page, with a blank line between its parts. -/
def lines (v : Variables) : Page → List String
  | .level l =>
    let list := columns (commands l)
    [l.about, "", "Usage: " ++ l.usage, ""]
      ++ (if list = [] then [] else "Commands:" :: list ++ [""])
      ++ "Options:" :: columns (options v l)
  | .help l =>
    [helpAbout, "", s!"Usage: {l.words} help [COMMAND]...", "", "Arguments:"]
      ++ columns [("[COMMAND]...", "Print help for the subcommand(s)")]

/-- The whole text of a help page, defaults and environment variables filled in. -/
def text (v : Variables) (p : Page) : String :=
  String.join ((p.lines v).map (· ++ "\n"))

end Page
end DocBuild.CommandLine
