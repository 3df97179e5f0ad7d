import DocBuild.SystemError
import DocBuild.Text.Quoted

namespace DocBuild

/-- Why a file operation did not happen. -/
inductive FileError where
  /-- The operating system refused. -/
  | system (error : SystemError)
  /-- A path with a zero byte never reaches the operating system. -/
  | zeroByte
  /-- The file is not UTF-8 text. -/
  | notText
  /-- Any other cause, by its own words. -/
  | other (message : String)
  deriving DecidableEq, Repr

namespace FileError

def message : FileError → String
  | system e => e.message
  | zeroByte => "file name contained an unexpected NUL byte"
  | notText => "stream did not contain valid UTF-8"
  | other m => m

/-- Whether the path simply names nothing. -/
def isMissing (e : FileError) : Bool :=
  e = .system .noEntry

end FileError

inductive Failure where
  /-- The repository root is unknown, or an external program could not be started. -/
  | environment (message : String)
  /-- The documentation builder ran and did not succeed. -/
  | builder (program : String) (status : Int)
  /-- The settings file cannot be used. -/
  | settings (message : String)
  /-- A configured value is unusable. -/
  | validation (message : String)
  /-- An operation on a file or directory failed. -/
  | file (path : Bytes) (error : FileError)
  deriving DecidableEq, Repr

namespace Failure

def message : Failure → String
  | environment m => "environment error: " ++ m
  | builder program status => s!"build error: `{program}` exited with status {status}"
  | settings m => "config error: " ++ m
  | validation m => "validation error: " ++ m
  | file path e => s!"I/O error at {Text.quotedBytes path}: {e.message}"

/-- The error messages from the failure itself down to its root cause. -/
def causes (f : Failure) : List String :=
  match f with
  | file _ e => [f.message, e.message]
  | _ => [f.message]

def isBuilder : Failure → Bool
  | builder .. => true
  | _ => false

/-- The builder's own status where it fits an exit status that means failure, else 1. -/
def exitStatus : Failure → Nat
  | builder _ status => if 1 ≤ status ∧ status ≤ 255 then status.toNat else 1
  | _ => 1

/-- A failure is never reported as success, and its status fits a byte. -/
theorem exitStatus_mem (f : Failure) : 1 ≤ f.exitStatus ∧ f.exitStatus ≤ 255 := by
  cases f <;> simp only [exitStatus] <;> (try split) <;> omega

end Failure
end DocBuild
