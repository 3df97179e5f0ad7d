import DocBuild.Failure
import DocBuild.Path
import DocBuild.Settings

namespace DocBuild

/-- The documentation directories under a repository root. -/
structure Site where
  root : Path
  /-- The documentation sources. -/
  sources : Path
  /-- What the generator writes below the sources; deleted before and after a build. -/
  generated : Path
  /-- The built documentation; deleted before a build. -/
  output : Path
  deriving DecidableEq, Repr

namespace Site

/-- The configured value as a path, if it stays below the directory it is joined to: no leading
    slash, no `..`, and at least one name. -/
def inner? (field value : String) : Except Failure Path :=
  let p : Path := Bytes.ofString value
  if p.components.any (fun c => c = .root || c = .up) then
    .error (.validation
      s!"{field} = {Text.quoted value} must be a relative path inside the repository")
  else if p.components.all (fun c => c = .here) then
    .error (.validation
      s!"{field} = {Text.quoted value} must name a directory below the repository root")
  else .ok p

/-- Refuses to delete `target` when it is `sources` or one of its ancestors. -/
def spare (field : String) (target sources : Path) : Except Failure Unit :=
  if sources.startsWith target then
    .error (.validation
      s!"{field} = {target.display} would delete the documentation sources in {sources.display}")
  else .ok ()

/-- Joins the configured layout to the repository root. The first check that fails decides the
    error: the three fields in order, then the two directories to be deleted. -/
def resolve (root : Path) (layout : LayoutSection) : Except Failure Site := do
  let sources ← inner? "layout.config_dir" layout.configDir
  let generated ← inner? "layout.generated_dir" layout.generatedDir
  let output ← inner? "layout.output_dir" layout.outputDir
  let site : Site := {
    root
    sources := root.join sources
    generated := (root.join sources).join generated
    output := root.join output }
  spare "layout.generated_dir" site.generated site.sources
  spare "layout.output_dir" site.output site.sources
  return site

/-- The directories deleted before a build, in that order. -/
def targets (site : Site) : List Path :=
  [site.generated, site.output]

end Site
end DocBuild
