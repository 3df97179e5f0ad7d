import DocBuild.CommandLine.Run
import DocBuild.Machine

namespace DocBuild

def environmentVariable (name : String) : IO (Option Bytes) :=
  return (← IO.getEnv name).map Bytes.ofString

/-- What is printed on a stream, as far as it is text. -/
def writeTo (stream : IO.FS.Stream) (b : Bytes) : IO Unit := do
  stream.write ⟨b.toArray⟩
  stream.flush

end DocBuild

open DocBuild in
def main (arguments : List String) : IO UInt32 := do
  let surroundings : CommandLine.Variables := {
    home := Settings.homeOf (← environmentVariable "HOME") (Bytes.ofString "/root")
    config := ← environmentVariable "DOCBUILD_CONFIG"
    sphinx := ← environmentVariable "SPHINXBUILD"
    logFilter := ← environmentVariable "RUST_LOG" }
  let context : Context := { directory := [], launch := Machine.launcher ⟨[], []⟩ }
  let outcome :=
    CommandLine.run surroundings (arguments.map Bytes.ofString) context Machine.standardTree
  writeTo (← IO.getStdout) (outcome.printed .output surroundings 0)
  writeTo (← IO.getStderr) (outcome.printed .errors surroundings 0)
  return outcome.status.toUInt32
