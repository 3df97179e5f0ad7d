import DocBuild.Proofs.Build.Preparation
import DocBuild.Proofs.Cleaning.Completeness
import Mathlib.Control.Monad.Basic

namespace DocBuild

variable {c : Context} {l : Locator} {start : Path} {layout : LayoutSection}
  {builder : BuilderSection} {s : Session} {site : Site} {t cleaned : FileTree}
  {removed : List Path} {report : BuildReport}

/-- Where neither directory is found, a cleaning changes nothing and reports nothing. -/
theorem Site.effect_clean_of_missing
    (h : ∀ p ∈ site.targets, t.entry c.directory .keep p = .error (.system .noEntry)) :
    site.clean.effect c { tree := t } = (t, .ok []) := by
  obtain ⟨events, hrun⟩ := run_removeAll_of_missing (s := { tree := t }) h
  exact Work.effect_of_ok hrun

/-- A cleaning that succeeds has found the site, and has cleaned it. -/
theorem Locator.effect_clean_eq_ok
    (h : (clean l.root start layout).effect c s = (cleaned, .ok (site, removed))) :
    ∃ found, (l.root start).effect c s = (found, .ok site.root) ∧
      Site.resolve site.root layout = .ok site ∧
      site.clean.effect c { tree := found } = (cleaned, .ok removed) := by
  rw [effect_clean, effect_findSite (l.ignoresReports_root start)] at h
  rcases hroot : (l.root start).effect c s with ⟨found, f | root⟩
  · rw [hroot] at h
    cases h
  rw [hroot] at h
  dsimp only at h
  cases hsite : Site.resolve root layout with
  | error f =>
    rw [hsite] at h
    cases h
  | ok site' =>
    rw [hsite] at h
    dsimp only at h
    rcases hclean : site'.clean.effect c { tree := found } with ⟨t, f | removed'⟩
    · rw [hclean] at h
      cases h
    rw [hclean] at h
    cases h
    have hsame := Site.root_eq hsite
    exact ⟨found, hsame ▸ rfl, hsame ▸ hsite, hclean⟩

theorem Locator.effect_clean_of_root {found : FileTree}
    (hroot : (l.root start).effect c s = (found, .ok site.root))
    (hsite : Site.resolve site.root layout = .ok site)
    (hclean : site.clean.effect c { tree := found } = (cleaned, .ok removed)) :
    (clean l.root start layout).effect c s = (cleaned, .ok (site, removed)) := by
  rw [effect_clean, effect_findSite (l.ignoresReports_root start), hroot]
  dsimp only
  rw [hsite]
  dsimp only
  rw [hclean]

/-- Where the root is found, a cleaning succeeds if the layout suits it and the site can be cleaned. -/
theorem Locator.cleaned_iff {root : Path} {found : FileTree}
    (hroot : (l.root start).effect c s = (found, .ok root)) :
    (∃ removed, (clean l.root start layout).effect c s = (cleaned, .ok (site, removed))) ↔
      Site.resolve root layout = .ok site ∧ site.CleansTo c found cleaned := by
  constructor
  · rintro ⟨removed, hclean⟩
    obtain ⟨found', hroot', hsite, hclean⟩ := effect_clean_eq_ok hclean
    rw [hroot] at hroot'
    cases hroot'
    obtain ⟨swept, hrun, rfl⟩ := Work.effect_eq_ok_iff.1 hclean
    have hcleans := Site.cleansTo_of_clean hrun
    exact ⟨hsite, hcleans⟩
  · rintro ⟨hsite, removed, events, hrun⟩
    obtain rfl := Site.root_eq hsite
    exact ⟨removed, effect_clean_of_root hroot hsite (Work.effect_of_ok hrun)⟩

/-- Where a cleaning has succeeded and the root is found as before, another one changes nothing and
    reports nothing. -/
theorem Locator.effect_clean_again {again : Session}
    (h : (clean l.root start layout).effect c s = (cleaned, .ok (site, removed)))
    (hagain : (l.root start).effect c again = (cleaned, .ok site.root)) :
    (clean l.root start layout).effect c again = (cleaned, .ok (site, [])) := by
  obtain ⟨found, -, hsite, hclean⟩ := effect_clean_eq_ok h
  obtain ⟨swept, hrun, rfl⟩ := Work.effect_eq_ok_iff.1 hclean
  exact effect_clean_of_root hagain hsite
    (Site.effect_clean_of_missing fun p hp => (Site.cleansTo_of_clean hrun).missing hp)

/-- What a build reports of the cleaning is the cleaning's own result, and has no part in what
    follows. -/
theorem BuilderSection.conclusion_eq_ok
    (h : builder.conclusion c site removed cleaned = (t, .ok report)) :
    report.site = site ∧ report.removed = removed ∧
      ∀ other, builder.conclusion c site other cleaned = (t, .ok { report with removed := other }) := by
  unfold conclusion at h ⊢
  cases hlaunch : c.launch cleaned (builder.launch site) with
  | error e =>
    rw [hlaunch] at h
    cases h
  | ok finished =>
    rw [hlaunch] at h
    dsimp only at h ⊢
    split at h
    · next hsuccess =>
      simp only [if_pos hsuccess]
      generalize finished.tree.removeForced c.obstacles c.directory site.generated = result at h ⊢
      rcases result with ⟨after, e | b⟩
      · cases h
      · cases h
        exact ⟨rfl, rfl, fun other => rfl⟩
    · cases h

/-- The launches of a builder, on whatever tree and for whatever site. -/
def BuilderSection.launches (b : BuilderSection) : FileTree → Launch → Prop :=
  fun _ l => ∃ site, l = b.launch site

/-- A builder is launched in the root of its site. -/
theorem BuilderSection.eq_of_launch_eq {site' : Site} (h : builder.launch site = builder.launch site')
    (hsite : Site.resolve site.root layout = .ok site)
    (hsite' : Site.resolve site'.root layout = .ok site') : site = site' := by
  have hroot : site.root = site'.root := congrArg Launch.directory h
  rw [hroot, hsite'] at hsite
  exact (Except.ok.inj hsite).symm

/-- A build asks for its builder exactly where a cleaning succeeds. -/
theorem Locator.requests_builder_iff :
    (build l.root start layout builder).Requests c s builder.launches ↔
      ∃ site removed cleaned,
        (clean l.root start layout).effect c s = (cleaned, .ok (site, removed)) := by
  rw [requests_build_iff]
  constructor
  · rintro (⟨q, hq, site, rfl⟩ | ⟨site, removed, cleaned, hclean, -⟩)
    · exact absurd rfl (request?_ne_launch hq)
    · exact ⟨site, removed, cleaned, hclean⟩
  · rintro ⟨site, removed, cleaned, hclean⟩
    exact .inr ⟨site, removed, cleaned, hclean, site, rfl⟩

/-- The builder is asked for on the tree that the cleaning leaves, for the site that it reports. -/
theorem Locator.requests_launch_iff :
    Site.resolve site.root layout = .ok site ∧
        (build l.root start layout builder).Requests c s ((builder.launch site).on cleaned) ↔
      ∃ removed, (clean l.root start layout).effect c s = (cleaned, .ok (site, removed)) := by
  rw [requests_build_iff]
  constructor
  · rintro ⟨hsite, ⟨q, hq, -, hsame⟩ | ⟨site', removed, cleaned', hclean, rfl, hsame⟩⟩
    · exact absurd hsame.symm (request?_ne_launch hq)
    · obtain ⟨found, -, hsite', -⟩ := effect_clean_eq_ok hclean
      obtain rfl := BuilderSection.eq_of_launch_eq hsame hsite' hsite
      exact ⟨removed, hclean⟩
  · rintro ⟨removed, hclean⟩
    obtain ⟨found, -, hsite, -⟩ := effect_clean_eq_ok hclean
    exact ⟨hsite, .inr ⟨site, removed, cleaned, hclean, rfl, rfl⟩⟩

/-- How a build and a cleaning with the same settings agree. -/
structure BeginsAsCleaning (c : Context) (l : Locator) (start : Path) (layout : LayoutSection)
    (builder : BuilderSection) (s : Session) : Prop where
  /-- The builder is asked for if and only if a cleaning succeeds. -/
  started : (build l.root start layout builder).Requests c s builder.launches ↔
    ∃ site removed cleaned,
      (clean l.root start layout).effect c s = (cleaned, .ok (site, removed))
  /-- It is asked for on the tree that the cleaning leaves and for the site that it reports. -/
  prepared (site : Site) (cleaned : FileTree) :
    Site.resolve site.root layout = .ok site ∧
        (build l.root start layout builder).Requests c s ((builder.launch site).on cleaned) ↔
      ∃ removed, (clean l.root start layout).effect c s = (cleaned, .ok (site, removed))
  /-- A build that succeeds reports the site and the deletions of the cleaning. -/
  reported (t : FileTree) (report : BuildReport)
    (hbuild : (build l.root start layout builder).effect c s = (t, .ok report)) :
    ∃ cleaned, (clean l.root start layout).effect c s =
      (cleaned, .ok (report.site, report.removed))
  /-- A cleaning fails as a build does that never asks for its builder. -/
  stopped (t : FileTree) (f : Failure) :
    (clean l.root start layout).effect c s = (t, .error f) ↔
      (build l.root start layout builder).effect c s = (t, .error f) ∧
        ¬ (build l.root start layout builder).Requests c s builder.launches
  /-- After a cleaning, a locator that answers the same root and touches nothing makes the build
      come to the same, except that it finds nothing to delete. -/
  absorbed (t : FileTree) (report : BuildReport) (again : Session)
    (hbuild : (build l.root start layout builder).effect c s = (t, .ok report))
    (htree : again.tree = ((clean l.root start layout).effect c s).1)
    (hagain : (l.root start).effect c again = (again.tree, .ok report.site.root)) :
    (build l.root start layout builder).effect c again = (t, .ok { report with removed := [] })

/-- A build begins as a cleaning: they agree on the site, the deletions, the tree and the failures, for
    every locator and builder. -/
theorem build_begins_as_cleaning : BeginsAsCleaning c l start layout builder s where
  started := Locator.requests_builder_iff
  prepared _ _ := Locator.requests_launch_iff
  reported t report hbuild := by
    rw [effect_build (l.ignoresReports_root start)] at hbuild
    rcases hclean : (clean l.root start layout).effect c s with ⟨cleaned, f | ⟨site, removed⟩⟩
    · rw [hclean] at hbuild
      cases hbuild
    · rw [hclean] at hbuild
      obtain ⟨rfl, rfl, -⟩ := BuilderSection.conclusion_eq_ok hbuild
      exact ⟨cleaned, rfl⟩
  stopped t f := by
    rw [Locator.requests_builder_iff]
    constructor
    · intro hclean
      refine ⟨effect_build_of_clean_error (l.ignoresReports_root start) hclean, ?_⟩
      rintro ⟨site, removed, cleaned, hok⟩
      rw [hclean] at hok
      cases hok
    · rintro ⟨hbuild, hnever⟩
      rcases hclean : (clean l.root start layout).effect c s with ⟨cleaned, g | ⟨site, removed⟩⟩
      · rw [effect_build_of_clean_error (l.ignoresReports_root start) hclean] at hbuild
        cases hbuild
        rfl
      · exact absurd ⟨site, removed, cleaned, hclean⟩ hnever
  absorbed t report again hbuild htree hagain := by
    rcases hclean : (clean l.root start layout).effect c s with ⟨cleaned, f | ⟨site, removed⟩⟩
    · rw [effect_build_of_clean_error (l.ignoresReports_root start) hclean] at hbuild
      cases hbuild
    rw [effect_build_of_clean_ok (l.ignoresReports_root start) hclean] at hbuild
    obtain ⟨rfl, -, hother⟩ := BuilderSection.conclusion_eq_ok hbuild
    rw [htree, hclean] at hagain
    rw [effect_build_of_clean_ok (l.ignoresReports_root start)
      (Locator.effect_clean_again hclean hagain)]
    exact hother []

/-- Cleaning the repository of `builtTree` and building it then, with a builder that makes the output
    directory, comes to the same as building it; only its own cleaning has nothing left to do. -/
theorem build_begins_as_cleaning_of_builtTree :
    let name := Bytes.ofString
    let c : Context := {
      directory := [name "r"]
      launch := fun t _ => .ok {
        ending := .exited 0, tree := t.put (name "_build") [name "docs", name "r"] .directory
        output := [], errors := [] } }
    let l := Locator.given []
    let s : Session := { tree := builtTree }
    BeginsAsCleaning c l (name "/r") {} {} s ∧
      ∃ cleaned t report,
        (clean l.root (name "/r") {}).effect c s = (cleaned, .ok (report.site, report.removed)) ∧
        (build l.root (name "/r") {} {}).effect c s = (t, .ok report) ∧
        report.removed = [report.site.generated, report.site.output] ∧
        (build l.root (name "/r") {} {}).effect c { tree := cleaned } =
          (t, .ok { report with removed := [] }) := by
  intro name c l s
  let site : Site := {
    root := name "/r/", sources := name "/r/docs"
    generated := name "/r/docs/generated", output := name "/r/docs/_build" }
  let report : BuildReport := {
    site, removed := [site.generated, site.output], generatedCleaned := false
    stages := Stage.start.walk }
  have hagree : BeginsAsCleaning c l (name "/r") {} {} s := build_begins_as_cleaning
  obtain ⟨t, hbuild⟩ : ∃ t, (build l.root (name "/r") {} {}).effect c s = (t, .ok report) :=
    Work.exists_effect_eq (by decide +kernel)
  obtain ⟨cleaned, hclean⟩ := hagree.reported t report hbuild
  have hkept : ((clean l.root (name "/r") {}).effect c s).1.isDirectoryPath c.directory
      (name "/r/") = true := by decide +kernel
  rw [hclean] at hkept
  have hagain : (l.root (name "/r")).effect c { tree := cleaned } = (cleaned, .ok site.root) :=
    Locator.effect_given_of_directory hkept
  refine ⟨hagree, cleaned, t, report, hclean, hbuild, rfl, ?_⟩
  exact hagree.absorbed t report _ hbuild (by rw [hclean]) hagain

/-- A version control program that touches the tree can undo a cleaning. Here it makes the output
    directory whenever it is asked, and answers the same root: so a build that follows a cleaning
    finds something to delete. -/
theorem cleaning_not_absorbed_of_busy_locator :
    let name := Bytes.ofString
    let tree := (FileTree.bare.put (name "r") [] .directory).put (name "docs") [name "r"] .directory
    let c : Context := {
      directory := [name "r"]
      launch := fun t l => .ok {
        ending := .exited 0, errors := []
        tree := if l.arguments = Locator.question then
          t.put (name "_build") [name "docs", name "r"] .directory else t
        output := name "/r\n" } }
    let find := (Locator.asked "git").root
    ∃ t report cleaned site removed left again report',
      (build find (name "/r") {} {}).effect c { tree } = (t, .ok report) ∧
      (clean find (name "/r") {}).effect c { tree } = (cleaned, .ok (site, removed)) ∧
      (find (name "/r")).effect c { tree := cleaned } = (left, .ok report.site.root) ∧
      (build find (name "/r") {} {}).effect c { tree := cleaned } = (again, .ok report') ∧
      report'.removed = [site.output] := by
  intro name tree c find
  let site : Site := {
    root := name "/r", sources := name "/r/docs"
    generated := name "/r/docs/generated", output := name "/r/docs/_build" }
  let report : BuildReport := {
    site, removed := [site.output], generatedCleaned := false, stages := Stage.start.walk }
  obtain ⟨t, hbuild⟩ : ∃ t, (build find (name "/r") {} {}).effect c { tree } = (t, .ok report) :=
    Work.exists_effect_eq (by decide +kernel)
  obtain ⟨cleaned, hclean⟩ : ∃ t, (clean find (name "/r") {}).effect c { tree } =
      (t, .ok (site, [site.output])) := Work.exists_effect_eq (by decide +kernel)
  have hasked : ((find (name "/r")).effect c
      { tree := ((clean find (name "/r") {}).effect c { tree }).1 }).2 = .ok site.root := by
    decide +kernel
  have hbuild' : ((build find (name "/r") {} {}).effect c
      { tree := ((clean find (name "/r") {}).effect c { tree }).1 }).2 = .ok report := by
    decide +kernel
  rw [hclean] at hasked hbuild'
  obtain ⟨left, hasked⟩ := Work.exists_effect_eq hasked
  obtain ⟨again, hbuild'⟩ := Work.exists_effect_eq hbuild'
  exact ⟨t, report, cleaned, site, [site.output], left, again, report, hbuild, hclean, hasked,
    hbuild', rfl⟩

end DocBuild
