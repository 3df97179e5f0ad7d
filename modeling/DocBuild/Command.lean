import DocBuild.Path
import DocBuild.Settings

namespace DocBuild

structure Command where
  program : String
  arguments : List Bytes
  deriving DecidableEq, Repr

namespace Command

/-- The command in one line, for progress reports; nothing is quoted. -/
def line (c : Command) : String :=
  c.arguments.foldl (fun text a => text ++ " " ++ Utf8.lossy a) c.program

end Command

/-- Make mode: `-M`, the format, the sources and the output directory, between the configured
    arguments. -/
def BuilderSection.command (b : BuilderSection) (sources output : Path) : Command where
  program := b.program
  arguments :=
    b.prefixArgs.map Bytes.ofString
      ++ [Bytes.ofString "-M", Bytes.ofString b.format, sources, output]
      ++ b.extraArgs.map Bytes.ofString

end DocBuild
