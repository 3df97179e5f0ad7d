import DocBuild.Proofs.Build.Agreement

namespace DocBuild

variable {c : Context} {l : Locator} {start : Path} {layout : LayoutSection}
  {builder : BuilderSection} {s : Session} {site : Site} {t : FileTree} {base cwd : Location} {p : Path}

/-- An absolute path reads the same everywhere. -/
theorem FileTree.locate_of_isAbsolute {last : Last} (h : p.isAbsolute = true) (cwd cwd' : Location) :
    t.locate cwd last p = t.locate cwd' last p := by
  simp only [locate, Path.origin, h, if_true]

/-- Names lead from a directory to a place below it. -/
theorem Path.Inner.place_eq (hp : p.Inner) (cwd : Location) :
    p.place cwd = p.names.reverse ++ cwd := by
  have hplace := hp.place_join (p := []) cwd
  rw [nil_join hp.relative] at hplace
  simpa [place, origin, isAbsolute, segments, Bytes.splitOn] using hplace

/-- The directories of a site: its sources and what is deleted for a build. -/
def Site.directories (site : Site) : List Path :=
  site.sources :: site.targets

theorem Site.exists_inner_of_mem_directories (hsite : Site.resolve site.root layout = .ok site)
    (hp : p ∈ site.directories) : ∃ q : Path, q.Inner ∧ p = site.root.join q := by
  rcases List.mem_cons.1 hp with rfl | hp
  · obtain ⟨⟨hsources, -, -⟩, -, heq⟩ := Site.resolve_eq_ok_iff.1 hsite
    exact ⟨_, hsources, congrArg Site.sources heq⟩
  · exact Site.exists_inner_of_mem_targets hsite hp

/-- How the directories of a site read in `base`, the root, where its builder works on a tree, beside
    how they read where the build was started. -/
structure RootView (c : Context) (l : Locator) (start : Path) (s : Session) (site : Site)
    (t : FileTree) (base : Location) : Prop where
  /-- The root is absolute if it was given so, or searched for from an absolute start, or answered
      so. Nothing else makes it absolute. -/
  rooted : site.root.isAbsolute = true ↔
    match l with
    | .given root => root.isAbsolute = true ∨ start.isAbsolute = true
    | .asked program => ∃ finished root,
        c.launch s.tree ⟨program, Locator.question, start⟩ = .ok finished ∧
          Locator.answer? finished.output = some root ∧ root.isAbsolute = true
  /-- Below an absolute root they read the same, whatever the builder makes of the tree. -/
  absolute (habsolute : site.root.isAbsolute = true) (p : Path) (hp : p ∈ site.directories)
    (t' : FileTree) (last : FileTree.Last) : t'.locate base last p = t'.locate c.directory last p
  /-- Where no links are met, they read the same exactly if the root, read in itself, is itself. -/
  direct (hroot : t.MeetsNoLink c.directory .follow site.root) (p : Path) (hp : p ∈ site.directories)
    (t' : FileTree) (last : FileTree.Last) (outside : t'.MeetsNoLink c.directory last p)
    (inside : t'.MeetsNoLink base last p) (found seen : Location)
    (hfound : t'.locate c.directory last p = .ok found) (hseen : t'.locate base last p = .ok seen) :
    seen = found ↔ site.root.place base = base
  /-- A root that is spelt by names alone is another directory when it is read in itself. -/
  descending (hroot : site.root.Inner) : site.root.place base ≠ base

/-- What is deleted for a build and what its builder works on have the same spelling. It means the
    same to both if the root is absolute; below a relative root it does so, where no links are met,
    only if the root leads from itself to itself. -/
theorem directories_read_in_root
    (hrequest : Site.resolve site.root layout = .ok site ∧
      (build l.root start layout builder).Requests c s ((builder.launch site).on t))
    (hbase : t.entry c.directory .follow site.root = .ok (base, .directory)) :
    RootView c l start s site t base where
  rooted := by
    obtain ⟨removed, hclean⟩ := Locator.requests_launch_iff.1 hrequest
    obtain ⟨found, hroot, -, -⟩ := Locator.effect_clean_eq_ok hclean
    cases l with
    | given root =>
      obtain ⟨after, hrun, -⟩ := Work.effect_eq_ok_iff.1 hroot
      obtain ⟨hspelt, -, -⟩ := Locator.run_given_eq_ok hrun
      rw [hspelt]
      exact Path.isAbsolute_join_iff
    | asked program =>
      obtain ⟨finished, hlaunch, -, hanswer, -⟩ := Locator.effect_asked_eq_ok_iff.1 hroot
      constructor
      · intro habsolute
        exact ⟨finished, site.root, hlaunch, hanswer, habsolute⟩
      · rintro ⟨finished', root, hlaunch', hanswer', habsolute⟩
        rw [hlaunch] at hlaunch'
        cases hlaunch'
        rw [hanswer] at hanswer'
        cases hanswer'
        exact habsolute
  absolute habsolute p hp t' last := by
    obtain ⟨q, hq, rfl⟩ := Site.exists_inner_of_mem_directories hrequest.1 hp
    exact FileTree.locate_of_isAbsolute (Path.isAbsolute_join_iff.2 (.inr habsolute)) _ _
  direct hroot p hp t' last outside inside found seen hfound hseen := by
    obtain ⟨q, hq, rfl⟩ := Site.exists_inner_of_mem_directories hrequest.1 hp
    rw [FileTree.eq_place_of_locate hfound outside, FileTree.eq_place_of_locate hseen inside,
      hq.place_join, hq.place_join, List.append_cancel_left_eq,
      ← FileTree.eq_place_of_entry hbase hroot]
  descending hroot hsame := by
    rw [hroot.place_eq, List.append_left_eq_self, List.reverse_eq_nil_iff] at hsame
    exact hroot.named hsame

/-- A relative root in a relative directory: the builder makes the output directory that it is told
    of, and this is not the one that was deleted, but another one in a second `project` within the
    first. -/
theorem directories_read_in_relative_root :
    let name := Bytes.ofString
    let tree := (FileTree.bare.put (name "project") [] .directory).put (name "docs")
      [name "project"] .directory
    let c : Context := {
      directory := []
      launch := fun t l =>
        match t.entry [] .follow l.directory, l.arguments with
        | .ok (base, .directory), [_, _, _, output] =>
          .ok { ending := .exited 0, tree := (t.makePath base output).1, output := [], errors := [] }
        | _, _ => .error (.system .noEntry) }
    let l := Locator.given (name "project")
    let s : Session := { tree }
    let site : Site := {
      root := name "./project", sources := name "./project/docs"
      generated := name "./project/docs/generated", output := name "./project/docs/_build" }
    let base : Location := [name "project"]
    (Site.resolve site.root {} = .ok site ∧
        (build l.root (name ".") {} {}).Requests c s ((BuilderSection.launch {} site).on tree)) ∧
      tree.entry c.directory .follow site.root = .ok (base, .directory) ∧
      RootView c l (name ".") s site tree base ∧ site.root.place base ≠ base ∧
      ∃ t report, (build l.root (name ".") {} {}).effect c s = (t, .ok report) ∧
        report.site = site ∧
        t.get? (site.output.place c.directory) = none ∧
        t.get? (site.output.place base) = some .directory := by
  intro name tree c l s site base
  have hbase : tree.entry c.directory .follow site.root = .ok (base, .directory) := by rfl
  have hclean : (clean l.root (name ".") {}).effect c s = (tree, .ok (site, [])) := by rfl
  have hrequest : Site.resolve site.root {} = .ok site ∧
      (build l.root (name ".") {} {}).Requests c s ((BuilderSection.launch {} site).on tree) :=
    Locator.requests_launch_iff.2 ⟨[], hclean⟩
  have hview : RootView c l (name ".") s site tree base :=
    directories_read_in_root hrequest hbase
  let report : BuildReport := {
    site, removed := [], generatedCleaned := false, stages := Stage.start.walk }
  obtain ⟨t, hbuild⟩ : ∃ t, (build l.root (name ".") {} {}).effect c s = (t, .ok report) :=
    Work.exists_effect_eq (by decide +kernel)
  have hmade : ((build l.root (name ".") {} {}).effect c s).1.get? (site.output.place c.directory) =
        none ∧
      ((build l.root (name ".") {} {}).effect c s).1.get? (site.output.place base) =
        some .directory := by decide +kernel
  rw [hbuild] at hmade
  refine ⟨hrequest, hbase, hview, ?_, t, report, hbuild, rfl, hmade⟩
  exact hview.descending ⟨by decide, by decide, by decide⟩

end DocBuild
