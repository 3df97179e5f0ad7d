namespace DocBuild

/-- Where the documentation lives, relative to the repository root. -/
structure LayoutSection where
  configDir : String := "docs"
  /-- The scratch directory of the generator, below the sources. -/
  generatedDir : String := "generated"
  /-- Where the built documentation goes. -/
  outputDir : String := "docs/_build"
  deriving DecidableEq, Repr

structure BuilderSection where
  program : String := "sphinx-build"
  /-- Arguments before the generated ones. -/
  prefixArgs : List String := []
  format : String := "html"
  /-- Arguments after the generated ones. -/
  extraArgs : List String := []
  deriving DecidableEq, Repr

/-- The tool that knows the repository root. -/
structure RepositorySection where
  program : String := "git"
  deriving DecidableEq, Repr

structure Settings where
  layout : LayoutSection := {}
  builder : BuilderSection := {}
  vcs : RepositorySection := {}
  deriving DecidableEq, Repr

end DocBuild
