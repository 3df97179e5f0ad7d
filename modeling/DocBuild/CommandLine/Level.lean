namespace DocBuild.CommandLine

inductive Level where
  | program
  | build
  | clean
  | settings
  | initSettings
  | showSettings
  deriving DecidableEq, Repr

namespace Level

/-- The commands below a level, by the word that selects each. -/
def children : Level → List (String × Level)
  | program => [("build", build), ("clean", clean), ("config", settings)]
  | settings => [("init", initSettings), ("show", showSettings)]
  | build | clean | initSettings | showSettings => []

def child? (level : Level) (word : String) : Option Level :=
  level.children.lookup word

def isDivided (level : Level) : Bool :=
  level.children ≠ []

/-- The words from the program's name to the level. -/
def words : Level → String
  | program => "docbuild"
  | build => "docbuild build"
  | clean => "docbuild clean"
  | settings => "docbuild config"
  | initSettings => "docbuild config init"
  | showSettings => "docbuild config show"

def about : Level → String
  | program => "Build the repository's HTML documentation with Sphinx."
  | build => "Clean, build the HTML docs, and drop generated sources (default)"
  | clean => "Remove generated sources and build output without building"
  | settings => "Configuration management"
  | initSettings => "Initialize config file with defaults"
  | showSettings => "Show resolved configuration"

/-- The words with the places for options and a further command. -/
def usage : Level → String
  | program => "docbuild [OPTIONS] [COMMAND]"
  | settings => "docbuild config [OPTIONS] <COMMAND>"
  | level => level.words ++ " [OPTIONS]"

end Level
end DocBuild.CommandLine
