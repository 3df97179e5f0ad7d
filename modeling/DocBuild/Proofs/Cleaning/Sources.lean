import DocBuild.Proofs.Cleaning.Run
import DocBuild.Proofs.Site.Resolution

namespace DocBuild

open FileTree (Under)

/-- Whether a cleaning before a build, or the deletion of the generated files after it, succeeds or
    fails half-way, only what lies at or below the generated files or the output can be gone. The
    directory of the sources is still there, and so is every file in it outside the two. -/
theorem cleaning_spares_sources {c : Context} {s : Session} {root : Path} {layout : LayoutSection}
    {site : Site} (hroot : s.tree.isDirectoryPath c.directory root = true)
    (hsite : Site.resolve root layout = .ok site)
    (hsources : s.tree.MeetsNoLink c.directory .follow site.sources)
    (hgenerated : s.tree.MeetsNoLink c.directory .keep site.generated)
    (houtput : s.tree.MeetsNoLink c.directory .keep site.output) {left : FileTree}
    (hleft : left = site.clean.leaves c s ∨ left = (removeForced site.generated).leaves c s) :
    (s.tree.Loses left fun k =>
      Under s.tree c.directory site.generated k ∨ Under s.tree c.directory site.output k) ∧
    ∀ l, s.tree.entry c.directory .follow site.sources = .ok (l, .directory) →
      left.get? l = some .directory ∧
      ∀ k content executable, l <:+ k → s.tree.get? k = some (.file content executable) →
        ¬ Under s.tree c.directory site.generated k → ¬ Under s.tree c.directory site.output k →
          left.get? k = some (.file content executable) := by
  obtain ⟨base, hbase⟩ := FileTree.isDirectoryPath_iff.1 hroot
  have hne := FileTree.ne_nil_of_entry hbase
  have hlost : s.tree.Loses left fun k =>
      Under s.tree c.directory site.generated k ∨ Under s.tree c.directory site.output k := by
    rcases hleft with rfl | rfl
    · refine (loses_removeAll site.targets).mono ?_
      rintro k ⟨p, hp, hk⟩
      simp only [Site.targets, List.mem_cons, List.not_mem_nil, or_false] at hp
      rcases hp with rfl | rfl
      · exact .inl hk
      · exact .inr hk
    · exact loses_removeForced.mono fun k hk => .inl hk
  refine ⟨hlost, fun l hl => ⟨?_, ?_⟩⟩
  · have hplace := FileTree.eq_place_of_entry hl hsources
    rw [hlost.get?_eq, (FileTree.entry_eq_ok_iff.1 hl).2]
    rintro (⟨m, e, hm, hbelow⟩ | ⟨m, e, hm, hbelow⟩)
    · rw [FileTree.eq_place_of_entry hm hgenerated, hplace] at hbelow
      exact Site.generated_not_above_sources hsite c.directory hbelow
    · rw [FileTree.eq_place_of_entry hm houtput, hplace] at hbelow
      exact Site.output_not_above_sources hsite hne c.directory hbelow
  · intro k content executable _ hk hgen hout
    rw [hlost.get?_eq fun h => h.elim hgen hout, hk]

/-- A repository in `/r` whose generated files hold a link back to the repository itself. -/
def loopTree : FileTree :=
  let name := Bytes.ofString
  let t := (FileTree.bare.put (name "r") [] .directory).put (name "docs") [name "r"] .directory
  let t := t.put (name "conf.py") [name "docs", name "r"] (.file (name "master") false)
  let t := t.put (name "generated") [name "docs", name "r"] .directory
  let t := t.put (name "loop") [name "generated", name "docs", name "r"] (.link (name "../.."))
  let t := t.put (name "out") [name "r"] .directory
  t.put (name "index.html") [name "out", name "r"] (.file [] false)

/-- Nothing in the output of `/r` may be deleted. -/
def lockedOutput : FileTree.Obstacles := fun _ l =>
  if l = [Bytes.ofString "out", Bytes.ofString "r"] then
    some { error := .denied, found := by decide, gone := [] }
  else none

/-- The sources outlive a cleaning that follows no link in the generated files and then fails. -/
theorem cleaning_spares_sources_of_loopTree :
    let name := Bytes.ofString
    let site : Site := {
      root := name "r/docs/..", sources := name "r/docs/../docs"
      generated := name "r/docs/../docs/generated", output := name "r/docs/.././out/" }
    let c : Context := { directory := [], launch := fun _ _ => .error .zeroByte, obstacles := lockedOutput }
    let s : Session := { tree := loopTree }
    s.tree.isDirectoryPath c.directory site.root = true ∧
      Site.resolve site.root { outputDir := "./out/" } = .ok site ∧
      s.tree.MeetsNoLink c.directory .follow site.sources ∧
      s.tree.MeetsNoLink c.directory .keep site.generated ∧
      s.tree.MeetsNoLink c.directory .keep site.output ∧
      (site.clean.leaves c s).get? [name "conf.py", name "docs", name "r"] =
        some (.file (name "master") false) := by
  intro name site c s
  have hroot : s.tree.isDirectoryPath c.directory site.root = true := by decide +kernel
  have hsite : Site.resolve site.root { outputDir := "./out/" } = .ok site := by rfl
  have hsources : s.tree.MeetsNoLink c.directory .follow site.sources := by decide +kernel
  have hgenerated : s.tree.MeetsNoLink c.directory .keep site.generated := by decide +kernel
  have houtput : s.tree.MeetsNoLink c.directory .keep site.output := by decide +kernel
  refine ⟨hroot, hsite, hsources, hgenerated, houtput, ?_⟩
  have hspared := cleaning_spares_sources hroot hsite hsources hgenerated houtput (.inl rfl)
  have hdirectory : s.tree.entry c.directory .follow site.sources =
      .ok ([name "docs", name "r"], .directory) := by rfl
  exact (hspared.2 _ hdirectory).2 _ _ _ (by decide +kernel) (by decide +kernel) (by decide +kernel)
    (by decide +kernel)

end DocBuild
