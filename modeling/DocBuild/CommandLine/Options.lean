import DocBuild.CommandLine.Level
import DocBuild.Path

namespace DocBuild.CommandLine

inductive LogFormat where
  | text
  | json
  deriving DecidableEq, Repr

inductive Parameter where
  | config
  | root
  | sphinx
  | logFormat
  deriving DecidableEq, Repr

namespace Parameter

def all : List Parameter :=
  [config, root, sphinx, logFormat]

def name : Parameter → String
  | config => "config"
  | root => "root"
  | sphinx => "sphinx"
  | logFormat => "log-format"

/-- What stands for the value in help and messages. -/
def placeholder : Parameter → String
  | config => "CONFIG"
  | root => "ROOT"
  | sphinx => "SPHINX"
  | logFormat => "LOG_FORMAT"

def named? (name : String) : Option Parameter :=
  all.find? (·.name = name)

/-- How usage texts show a parameter. -/
def shown (p : Parameter) : String :=
  s!"--{p.name} <{p.placeholder}>"

end Parameter

inductive Switch where
  | verbose
  | help
  | version
  deriving DecidableEq, Repr

namespace Switch

def name : Switch → String
  | verbose => "verbose"
  | help => "help"
  | version => "version"

def letter : Switch → Char
  | verbose => 'v'
  | help => 'h'
  | version => 'V'

def ofLevel : Level → List Switch
  | .program => [verbose, help, version]
  | _ => [verbose, help]

/-- Dots mark the switch that counts. -/
def shown : Switch → String
  | verbose => "--verbose..."
  | s => "--" ++ s.name

end Switch

/-- Why a command line cannot be understood. -/
inductive UsageError where
  | unknownCommand (word : String)
  | unexpectedArgument (word : String)
  /-- A value was attached to a switch. -/
  | unexpectedValue (value : String) (switch : Switch)
  | missingValue (p : Parameter)
  | invalidValue (p : Parameter) (value : String)
  | repeated (p : Parameter)
  /-- The value of an option that takes text is no UTF-8. -/
  | notText
  | missingCommand (level : Level)
  deriving DecidableEq, Repr

def UsageError.message : UsageError → String
  | unknownCommand word => s!"unrecognized subcommand '{word}'"
  | unexpectedArgument word => s!"unexpected argument '{word}' found"
  | unexpectedValue value switch =>
    s!"unexpected value '{value}' for '{switch.shown}' found; no more were expected"
  | missingValue p => s!"a value is required for '{p.shown}' but none was supplied"
  | invalidValue p value => s!"invalid value '{value}' for '{p.shown}'"
  | repeated p => s!"the argument '{p.shown}' cannot be used multiple times"
  | notText => "invalid UTF-8 was detected in one or more arguments"
  | missingCommand level =>
    s!"'{level.words}' requires a subcommand but one was not provided"

structure Options where
  config : Option Path := none
  root : Option Path := none
  sphinx : Option String := none
  logFormat : Option LogFormat := none
  /-- How often more log records were asked for. -/
  verbosity : Nat := 0
  deriving DecidableEq, Repr

namespace Options

def has (o : Options) : Parameter → Bool
  | .config => o.config.isSome
  | .root => o.root.isSome
  | .sphinx => o.sphinx.isSome
  | .logFormat => o.logFormat.isSome

/-- A path may be any bytes but must not be empty. -/
def readPath (p : Parameter) (value : Bytes) : Except UsageError Path :=
  if value = [] then .error (.missingValue p) else .ok value

def readText (value : Bytes) : Except UsageError String :=
  match value.toString? with
  | some s => .ok s
  | none => .error .notText

def readLogFormat (value : Bytes) : Except UsageError LogFormat :=
  match value.toString? with
  | some "text" => .ok .text
  | some "json" => .ok .json
  | some "" => .error (.missingValue .logFormat)
  | _ => .error (.invalidValue .logFormat (Utf8.lossy value))

/-- Sets an option, which must not have been set before. -/
def store (o : Options) (p : Parameter) (value : Bytes) : Except UsageError Options :=
  if o.has p then .error (.repeated p)
  else
    match p with
    | .config => return { o with config := ← readPath p value }
    | .root => return { o with root := ← readPath p value }
    | .sphinx => return { o with sphinx := ← readText value }
    | .logFormat => return { o with logFormat := ← readLogFormat value }

/-- What two levels set together: where both set an option, the inner level decides. -/
def nested (inner outer : Options) : Options where
  config := inner.config <|> outer.config
  root := inner.root <|> outer.root
  sphinx := inner.sphinx <|> outer.sphinx
  logFormat := inner.logFormat <|> outer.logFormat
  verbosity := if inner.verbosity = 0 then outer.verbosity else inner.verbosity

def isSet (o : Options) : Bool :=
  o ≠ {}

end Options

structure Variables where
  /-- The user's home directory, where one is known. -/
  home : Option Path
  /-- A settings file for when none is named. -/
  config : Option Bytes := none
  /-- A documentation builder for when none is named. -/
  sphinx : Option Bytes := none
  /-- Which log records are shown. -/
  logFilter : Option Bytes := none
  deriving DecidableEq, Repr

/-- The options with the environment standing in for those that are not set. A variable that is not
    needed may hold anything. -/
def Variables.complete (v : Variables) (o : Options) : Except UsageError Options := do
  let o ← match o.config, v.config with
    | none, some value => o.store .config value
    | _, _ => pure o
  match o.sphinx, v.sphinx with
  | none, some value => o.store .sphinx value
  | _, _ => pure o

end DocBuild.CommandLine
