import DocBuild.Text.Quoted

namespace DocBuild

/-- How important a record is, the gravest first. -/
inductive LogLevel where
  | error
  | warn
  | info
  | debug
  | trace
  deriving DecidableEq, Repr

namespace LogLevel

/-- Ranks levels from grave to chatty. -/
def rank : LogLevel → Nat
  | error => 1
  | warn => 2
  | info => 3
  | debug => 4
  | trace => 5

def name : LogLevel → String
  | error => "ERROR"
  | warn => "WARN"
  | info => "INFO"
  | debug => "DEBUG"
  | trace => "TRACE"

end LogLevel

inductive LogSource where
  | commandLine
  | builder
  | cleaning
  | pipeline
  | repository
  | settings
  deriving DecidableEq, Repr

/-- The name by which filters select a source. -/
def LogSource.target : LogSource → String
  | commandLine => "docbuild::commands"
  | builder => "docbuild_core::builder"
  | cleaning => "docbuild_core::clean"
  | pipeline => "docbuild_core::pipeline"
  | repository => "docbuild_core::repo"
  | settings => "docbuild_shared::config"

inductive LogValue where
  | text (s : String)
  | number (n : Nat)
  deriving DecidableEq, Repr

/-- One line of the log before it is formatted. -/
structure LogRecord where
  level : LogLevel
  source : LogSource
  message : String
  fields : List (String × LogValue) := []
  deriving DecidableEq, Repr

end DocBuild
