import DocBuild.Site
import DocBuild.Work

namespace DocBuild

/-- Deletes what a path names with everything in it; answers whether there was anything. -/
def removeForced (p : Path) : Work Bool := do
  let c ← read
  let removed ← Work.onTree p fun t => t.removeForced c.obstacles c.directory p
  if removed then
    Work.log ⟨.info, .cleaning, "removed", [("path", .text p.display)]⟩
  else
    Work.log ⟨.debug, .cleaning, "nothing to remove", [("path", .text p.display)]⟩
  return removed

/-- Deletes those of the paths that are there, in order, and answers which these were. -/
def removeAll : List Path → Work (List Path)
  | [] => return []
  | p :: rest => do
    let removed ← removeForced p
    let more ← removeAll rest
    return if removed then p :: more else more

/-- Deletes the generated sources and then the built documentation. -/
def Site.clean (site : Site) : Work (List Path) :=
  removeAll site.targets

end DocBuild
