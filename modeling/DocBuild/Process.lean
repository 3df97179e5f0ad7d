import DocBuild.FileTree
import DocBuild.SystemError

namespace DocBuild

inductive Ending where
  | exited (code : Nat)
  | killed (signal : Nat)
  deriving DecidableEq, Repr

namespace Ending

/-- Only an exit with status 0 is a success. -/
def success (e : Ending) : Bool :=
  e = .exited 0

/-- The status that shells report: a killed process counts as 128 more than its signal. -/
def status : Ending → Nat
  | exited code => code
  | killed signal => 128 + signal

end Ending

structure Launch where
  program : String
  arguments : List Bytes
  /-- The working directory, looked up by the process that asks. -/
  directory : Path
  deriving DecidableEq, Repr

/-- Why a program could not be started. -/
inductive LaunchError where
  | system (error : SystemError)
  /-- A zero byte in the program, an argument or the directory. -/
  | zeroByte
  deriving DecidableEq, Repr

def LaunchError.message : LaunchError → String
  | system e => e.message
  | zeroByte => "nul byte found in provided data"

/-- What a finished program leaves. -/
structure Completion where
  ending : Ending
  tree : FileTree
  output : Bytes
  errors : Bytes

/-- Whatever runs programs: any behaviour is possible, also a different one each time the tree
    differs. -/
abbrev Launcher := FileTree → Launch → Except LaunchError Completion

end DocBuild
