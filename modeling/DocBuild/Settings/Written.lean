import DocBuild.Settings
import DocBuild.Toml.Written

namespace DocBuild.Settings

private def field (key : String) (written : List Char) : List Char :=
  key.toList ++ " = ".toList ++ written ++ ['\n']

private def textField (key value : String) : List Char :=
  field key (Toml.writeString value.toList)

private def textsField (key : String) (values : List String) : List Char :=
  field key (Toml.writeStrings (values.map String.toList))

/-- The text of a settings file. -/
def written (s : Settings) : List Char :=
  "[layout]\n".toList
    ++ textField "config_dir" s.layout.configDir
    ++ textField "generated_dir" s.layout.generatedDir
    ++ textField "output_dir" s.layout.outputDir
    ++ "\n[builder]\n".toList
    ++ textField "program" s.builder.program
    ++ textsField "prefix_args" s.builder.prefixArgs
    ++ textField "format" s.builder.format
    ++ textsField "extra_args" s.builder.extraArgs
    ++ "\n[vcs]\n".toList
    ++ textField "program" s.vcs.program

def render (s : Settings) : String :=
  String.ofList s.written

end DocBuild.Settings
