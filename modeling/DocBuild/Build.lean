import DocBuild.Cleaning
import DocBuild.Command
import DocBuild.Locator
import DocBuild.Tracker

namespace DocBuild

/-- Whatever finds the repository root from a starting directory. -/
abbrev RootFinder := Path → Work Path

/-- Runs the documentation builder at the repository root and waits for it. -/
def BuilderSection.run (b : BuilderSection) (root sources output : Path) : Work Unit := do
  let command := b.command sources output
  Work.log ⟨.info, .builder, "running documentation builder",
    [("cwd", .text root.display), ("command", .text command.line)]⟩
  match (← read).launch (← Work.tree) ⟨command.program, command.arguments, root⟩ with
  | .error e =>
    throw (.environment
      s!"failed to spawn `{b.program}`: {e.message} (is Sphinx installed and on PATH?)")
  | .ok finished => do
    Work.setTree finished.tree
    Work.report (.output finished.output)
    Work.report (.errors finished.errors)
    if finished.ending.success then
      Work.log ⟨.info, .builder, "documentation builder finished", []⟩
    else throw (.builder b.program finished.ending.status)

/-- The site that the configured layout describes in the repository around `start`. -/
def findSite (find : RootFinder) (start : Path) (layout : LayoutSection) : Work Site := do
  Work.report (.phase "Resolving repository root")
  let root ← find start
  Work.ofExcept (Site.resolve root layout)

structure BuildReport where
  site : Site
  removed : List Path
  /-- Whether the builder left generated sources behind. -/
  generatedCleaned : Bool
  stages : List Stage
  deriving DecidableEq, Repr

/-- The first step of a build: the site is found. -/
def searching (find : RootFinder) (start : Path) (layout : LayoutSection) : Work Site := do
  let site ← findSite find start layout
  Work.log ⟨.info, .pipeline, "repository root resolved", [("root", .text site.root.display)]⟩
  return site

/-- The second step: what earlier builds have left is deleted. -/
def sweeping (site : Site) : Work (List Path) := do
  Work.report (.phase "Removing previous build output")
  site.clean

/-- The third step: the builder runs. -/
def building (builder : BuilderSection) (site : Site) : Work Unit := do
  Work.report (.builder (builder.command site.sources site.output).line)
  builder.run site.root site.sources site.output

/-- The last step: what the builder has generated below the sources is deleted. -/
def tidying (site : Site) : Work Bool := do
  Work.report (.phase "Removing generated sources")
  removeForced site.generated

/-- The steps of a build. Each one that succeeds leads to the next stage, and the first that fails is
    the last. -/
def steps (find : RootFinder) (start : Path) (layout : LayoutSection) (builder : BuilderSection) :
    Tracked (Site × List Path × Bool) := do
  let site ← searching find start layout
  Tracked.advance
  let removed ← sweeping site
  Tracked.advance
  building builder site
  Tracked.advance
  let generatedCleaned ← tidying site
  Tracked.advance
  return (site, removed, generatedCleaned)

/-- What a build does when a step has failed. -/
def abandon {α : Type} (f : Failure) : Tracked α := do
  Work.log ⟨.warn, .pipeline, "documentation build failed",
    [("stage", .text (← Tracked.tracker).current.name), ("error", .text f.message)]⟩
  Tracked.fail
  throw f

/-- What a build does when all steps have succeeded. -/
def conclude (site : Site) (removed : List Path) (generatedCleaned : Bool) : Tracked BuildReport := do
  Tracked.advance
  let stages := (← Tracked.tracker).walked
  Work.log ⟨.info, .pipeline, "documentation built", [("output", .text site.output.display)]⟩
  Work.report (.done stages.length)
  return { site, removed, generatedCleaned, stages }

/-- Finds the site, deletes the generated sources and the output, runs the builder, and deletes what
    it generated below the sources. -/
def build (find : RootFinder) (start : Path) (layout : LayoutSection) (builder : BuilderSection) :
    Work BuildReport :=
  Tracked.track do
    let (site, removed, generatedCleaned) ← tryCatch (steps find start layout builder) abandon
    conclude site removed generatedCleaned

/-- Finds the site and deletes its generated sources and its output. -/
def clean (find : RootFinder) (start : Path) (layout : LayoutSection) :
    Work (Site × List Path) := do
  let site ← findSite find start layout
  Work.report (.phase "Removing build output")
  let removed ← site.clean
  Work.log ⟨.info, .pipeline, "documentation directories cleaned",
    [("count", .number removed.length)]⟩
  return (site, removed)

end DocBuild
