import DocBuild.Proofs.Build.Effects
import DocBuild.Proofs.FileTree.Subtree

namespace DocBuild

open FileTree (Obstacles)

variable {c : Context} {find : RootFinder} {start : Path} {layout : LayoutSection}
  {builder : BuilderSection} {s s' : Session} {site : Site}

/-- The trees agree outside of what lies at or below some places. -/
def FileTree.AgreesOutside (s t : FileTree) (cwd : Location) (places : List Path) : Prop :=
  ∀ k, (∀ p ∈ places, ¬ p.place cwd <:+ k) → s.get? k = t.get? k

namespace Launcher

/-- Whatever starts programs enters their directory first, so it starts none in a directory that is
    not found. -/
def EntersDirectory (launch : Launcher) (cwd : Location) : Prop :=
  ∀ t l finished, launch t l = .ok finished → t.isDirectoryPath cwd l.directory = true

/-- Where there are no links, the program makes none and changes nothing but what lies at or below
    some places. -/
structure KeepsTo (launch : Launcher) (cwd : Location) (l : Launch) (places : List Path) :
    Prop where
  linkFree : ∀ t finished, t.LinkFree → launch t l = .ok finished → finished.tree.LinkFree
  outside : ∀ t finished, t.LinkFree → launch t l = .ok finished →
    finished.tree.AgreesOutside t cwd places

end Launcher

/-- A tree without links in which the root is found and nothing is where the site is built. -/
structure Site.CleanIn (site : Site) (cwd : Location) (t : FileTree) : Prop where
  linkFree : t.LinkFree
  rooted : ∃ base, t.entry cwd .follow site.root = .ok (base, .directory)
  missing : ∀ p ∈ site.targets, t.get? (p.place cwd) = none

section Clean

variable {cwd : Location} {cleaned built r : FileTree} {p : Path}

theorem Site.generated_mem_targets (site : Site) : site.generated ∈ site.targets :=
  List.mem_cons_self ..

theorem Site.output_mem_targets (site : Site) : site.output ∈ site.targets :=
  List.mem_cons_of_mem _ (List.mem_cons_self ..)

/-- A successful cleaning of a tree without links leaves a clean one, unless it takes the root. -/
theorem Site.cleanIn_of_clean {removed : List Path} {swept : Session}
    (hsite : Site.resolve site.root layout = .ok site) (hlinks : s.tree.LinkFree)
    (hclean : site.clean.run c s = .ok removed swept)
    (hrooted : swept.tree.isDirectoryPath c.directory site.root = true) :
    site.CleanIn c.directory swept.tree := by
  obtain ⟨base, hbase⟩ := FileTree.isDirectoryPath_iff.1 hrooted
  have hpart := (loses_removeAll (c := c) (s := s) site.targets).partOf
  have hdeleted : (removeAll site.targets).run c s = .ok removed swept := hclean
  rw [Work.leaves_of_ok hdeleted] at hpart
  have hlinks' := hlinks.of_partOf hpart
  refine ⟨hlinks', ⟨base, hbase⟩, fun p hp => ?_⟩
  have hmissing := (Site.cleansTo_of_clean hclean).missing hp
  obtain ⟨q, hq, rfl⟩ := Site.exists_inner_of_mem_targets hsite hp
  exact FileTree.get?_place_of_missing hlinks' hbase hq hmissing

variable (hclean : site.CleanIn cwd cleaned)
include hclean

theorem Site.CleanIn.not_below {k : Location} {e : Entry} (hk : cleaned.get? k = some e)
    (hp : p ∈ site.targets) : ¬ p.place cwd <:+ k := by
  intro hbelow
  rw [FileTree.get?_eq_none_of_suffix (hclean.missing p hp) hbelow] at hk
  cases hk

theorem Site.CleanIn.place_ne_nil (hp : p ∈ site.targets) : p.place cwd ≠ [] := fun hroot =>
  hclean.not_below (FileTree.get?_root cleaned) hp (hroot ▸ List.suffix_refl [])

/-- Whatever comes at or below the two places leaves a clean tree a part of the whole. -/
theorem Site.CleanIn.partOf (houtside : built.AgreesOutside cleaned cwd site.targets) :
    cleaned.PartOf built := by
  intro k e hk
  rw [houtside k fun p hp => hclean.not_below hk hp, hk]

theorem Site.CleanIn.partOf_prune (hpart : cleaned.PartOf built) (hp : p ∈ site.targets) :
    cleaned.PartOf (built.prune (p.place cwd)) := by
  intro k e hk
  rw [FileTree.get?_prune (hclean.place_ne_nil hp), if_neg (hclean.not_below hk hp), hpart k e hk]

/-- A removal in a larger tree cuts off one of the two subtrees: the root is not spelt through them,
    for it is found where they are missing. -/
theorem Site.CleanIn.removeForced_eq_prune {obstacles : Obstacles} {removed : Bool}
    (hsite : Site.resolve site.root layout = .ok site) (hlinks : built.LinkFree)
    (hpart : cleaned.PartOf built) (hp : p ∈ site.targets)
    (h : built.removeForced obstacles cwd p = (r, .ok removed)) :
    r = built.prune (p.place cwd) ∧ (removed = true ↔ built.get? (p.place cwd) ≠ none) := by
  have hremoval := FileTree.removal_removeForced built obstacles cwd p
  rw [h] at hremoval
  have hmissing := hclean.missing p hp
  obtain ⟨base, hbase⟩ := hclean.rooted
  have hbase' := FileTree.entry_of_partOf hpart (by decide) hbase
  obtain ⟨q, hq, rfl⟩ := Site.exists_inner_of_mem_targets hsite hp
  refine hremoval.eq_prune hlinks hbase' hq fun v hv => ?_
  exact FileTree.not_suffix_of_passes hclean.linkFree hbase hmissing hv

/-- Without what a builder has made at or below the two places, the tree is the clean one again. -/
theorem Site.CleanIn.prune_prune (houtside : built.AgreesOutside cleaned cwd site.targets) :
    (built.prune (site.generated.place cwd)).prune (site.output.place cwd) = cleaned := by
  have hgenerated := site.generated_mem_targets
  have houtput := site.output_mem_targets
  ext1 k
  rw [FileTree.get?_prune (hclean.place_ne_nil houtput),
    FileTree.get?_prune (hclean.place_ne_nil hgenerated)]
  split
  · next hbelow => exact (FileTree.get?_eq_none_of_suffix (hclean.missing _ houtput) hbelow).symm
  next hout =>
  split
  · next hbelow => exact (FileTree.get?_eq_none_of_suffix (hclean.missing _ hgenerated) hbelow).symm
  next hout' =>
  refine houtside k fun p hp => ?_
  simp only [Site.targets, List.mem_cons, List.not_mem_nil, or_false] at hp
  rcases hp with rfl | rfl
  · exact hout'
  · exact hout

/-- Cleaning what a builder has made, the generated files deleted before, gives the clean tree back
    and finds nothing but the output. -/
theorem Site.CleanIn.again {removed : List Path} {swept : Session} (hcwd : c.directory = cwd)
    (hsite : Site.resolve site.root layout = .ok site) (hlinks : built.LinkFree)
    (houtside : built.AgreesOutside cleaned cwd site.targets)
    (hbuilt : s.tree = built.prune (site.generated.place cwd))
    (hrun : site.clean.run c s = .ok removed swept) :
    swept.tree = cleaned ∧ (removed = [] ∨ removed = [site.output]) := by
  subst hcwd
  have hpart := hclean.partOf houtside
  have hlinks' : s.tree.LinkFree := hlinks.of_partOf (hbuilt ▸ (FileTree.loses_prune _ _).partOf)
  have hpart' : cleaned.PartOf s.tree :=
    hbuilt ▸ hclean.partOf_prune hpart site.generated_mem_targets
  obtain ⟨between, b, b', hfirst, hsecond, hremoved⟩ := Site.run_clean_eq_ok hrun
  have hgone : s.tree.get? (site.generated.place c.directory) = none := by
    rw [hbuilt, FileTree.get?_prune (hclean.place_ne_nil site.generated_mem_targets),
      if_pos (List.suffix_refl _)]
  obtain ⟨hbetween, hb⟩ :=
    hclean.removeForced_eq_prune hsite hlinks' hpart' site.generated_mem_targets hfirst
  rw [FileTree.prune_eq_self hgone] at hbetween
  subst hbetween
  obtain ⟨hswept, -⟩ :=
    hclean.removeForced_eq_prune hsite hlinks' hpart' site.output_mem_targets hsecond
  refine ⟨by rw [hswept, hbuilt, hclean.prune_prune houtside], ?_⟩
  have hnone : b = false := by simpa [hgone] using hb
  rw [hremoved, hnone]
  cases b'
  · exact .inl rfl
  · exact .inr rfl

end Clean

/-- Where the search for the root has left no links, the builder of a successful build has seen a clean
    tree. -/
theorem BuildTrace.cleanIn {report : BuildReport} {before found cleaned built after : FileTree}
    (htrace : BuildTrace c find start layout builder report before found cleaned built after)
    (hlinks : found.LinkFree) (henters : c.launch.EntersDirectory c.directory) :
    report.site.CleanIn c.directory cleaned := by
  obtain ⟨ready, swept, hready, rfl, hclean⟩ := htrace.cleaning
  obtain ⟨finished, hlaunch, -, -⟩ := htrace.building
  exact Site.cleanIn_of_clean htrace.accepted (hready ▸ hlinks) hclean (henters _ _ _ hlaunch)

/-- Building twice gives the same tree as building once, and the second time nothing is found but
    the output. The search for the root must have left no links the first time, and the tree as it was
    the second time; then the second cleaning gives back the tree that the first builder has seen, and
    the second builder does what the first has done. -/
theorem build_twice_eq {again again' : Session} {report report' : BuildReport}
    (hlinks : ((find start).leaves c s.asking).LinkFree)
    (henters : c.launch.EntersDirectory c.directory)
    (hrun : (build find start layout builder).run c s = .ok report s')
    (hkeeps : c.launch.KeepsTo c.directory (builder.launch report.site) report.site.targets)
    (hagain : again.tree = s'.tree) (hfind : (find start).leaves c again.asking = again.tree)
    (hrun' : (build find start layout builder).run c again = .ok report' again')
    (hroot : report'.site.root = report.site.root) :
    again'.tree = s'.tree ∧ (report'.removed = [] ∨ report'.removed = [report.site.output]) := by
  obtain ⟨cleaned, built, htrace⟩ := BuildTrace.of_run hrun
  obtain ⟨cleaned', built', htrace'⟩ := BuildTrace.of_run hrun'
  have hsame : report'.site = report.site := by
    have haccepted := htrace'.accepted
    rw [hroot, htrace.accepted] at haccepted
    exact (Except.ok.inj haccepted).symm
  have hclean := htrace.cleanIn hlinks henters
  have hsite := htrace.accepted
  obtain ⟨finished, hlaunch, -, rfl⟩ := htrace.building
  have hbuiltLinks := hkeeps.linkFree cleaned finished hclean.linkFree hlaunch
  have houtside := hkeeps.outside cleaned finished hclean.linkFree hlaunch
  have hpart := hclean.partOf houtside
  obtain ⟨hafter, -⟩ := hclean.removeForced_eq_prune hsite hbuiltLinks hpart
    report.site.generated_mem_targets htrace.finishing
  obtain ⟨ready, swept, hready, rfl, hsweep⟩ := htrace'.cleaning
  have htree : ready.tree = finished.tree.prune (report.site.generated.place c.directory) := by
    rw [hready, hfind, hagain, hafter]
  rw [hsame] at hsweep
  obtain ⟨hswept, hremoved⟩ := hclean.again rfl hsite hbuiltLinks houtside htree hsweep
  obtain ⟨finished', hlaunch', -, rfl⟩ := htrace'.building
  have hfinished : finished' = finished := by
    rw [hsame, hswept] at hlaunch'
    exact Except.ok.inj (hlaunch'.symm.trans hlaunch)
  have hfinishing := htrace'.finishing
  rw [hfinished, hsame, htrace.finishing] at hfinishing
  exact ⟨(congrArg Prod.fst hfinishing).symm, hremoved⟩

/-- A builder for the repository in `/r` that generates a directory and writes a page. -/
def pageWriter : Launcher := fun t l =>
  let name := Bytes.ofString
  let docs := [name "docs", name "r"]
  if t.isDirectoryPath [name "r"] l.directory then
    let t := t.put (name "generated") docs .directory
    let t := t.put (name "_build") docs .directory
    let t := t.put (name "index.html") (name "_build" :: docs) (.file [] false)
    .ok { ending := .exited 0, tree := t, output := [], errors := [] }
  else .error (.system .noEntry)

theorem entersDirectory_pageWriter : pageWriter.EntersDirectory [Bytes.ofString "r"] := by
  intro t l finished h
  unfold pageWriter at h
  dsimp only at h
  split at h
  · assumption
  · cases h

theorem keepsTo_pageWriter (l : Launch) {places : List Path}
    (hgenerated : ∃ p ∈ places, p.place [Bytes.ofString "r"] =
      [Bytes.ofString "generated", Bytes.ofString "docs", Bytes.ofString "r"])
    (houtput : ∃ p ∈ places, p.place [Bytes.ofString "r"] =
      [Bytes.ofString "_build", Bytes.ofString "docs", Bytes.ofString "r"]) :
    pageWriter.KeepsTo [Bytes.ofString "r"] l places := by
  obtain ⟨generated, hmem, hgenerated⟩ := hgenerated
  obtain ⟨output, hmem', houtput⟩ := houtput
  constructor
  · intro t finished hlinks h
    unfold pageWriter at h
    dsimp only at h
    split at h
    · cases h
      iterate 3 refine FileTree.LinkFree.put ?_ (by simp)
      exact hlinks
    · cases h
  · intro t finished _ h k hout
    have hgenerated' := hgenerated ▸ hout generated hmem
    have houtput' := houtput ▸ hout output hmem'
    unfold pageWriter at h
    dsimp only at h
    split at h
    · cases h
      rw [FileTree.get?_put_of_ne, FileTree.get?_put_of_ne, FileTree.get?_put_of_ne]
      · rintro rfl
        exact hgenerated' (List.suffix_refl _)
      · rintro rfl
        exact houtput' (List.suffix_refl _)
      · rintro rfl
        exact houtput' (List.suffix_cons _ _)
    · cases h

/-- The page of a first build is deleted, and the second build writes it again. -/
theorem build_twice_eq_of_pageWriter :
    let name := Bytes.ofString
    let c : Context := { directory := [name "r"], launch := pageWriter }
    let s : Session := {
      tree := (FileTree.bare.put (name "r") [] .directory).put (name "docs") [name "r"] .directory }
    let find := (Locator.given []).root
    ∃ report report' s' again', (build find (name "/r") {} {}).run c s = .ok report s' ∧
      (build find (name "/r") {} {}).run c s' = .ok report' again' ∧
      report'.removed = [report.site.output] ∧ again'.tree = s'.tree := by
  intro name c s find
  let site : Site := {
    root := name "/r/", sources := name "/r/docs", generated := name "/r/docs/generated"
    output := name "/r/docs/_build" }
  have hruns : (match (build find (name "/r") {} {}).run c s with
      | .ok report s' =>
        match (build find (name "/r") {} {}).run c s' with
        | .ok report' _ => decide (report.site = site ∧ report'.site = site ∧
            report'.removed = [site.output])
        | .error _ _ => false
      | .error _ _ => false) = true := by decide +kernel
  split at hruns
  · next report s' hrun =>
    split at hruns
    · next report' again' hrun' =>
      obtain ⟨hsite, hsite', hremoved⟩ := of_decide_eq_true hruns
      have hlinks : s.tree.LinkFree :=
        (FileTree.linkFree_bare.put (by simp)).put (by simp)
      have hkeeps : c.launch.KeepsTo c.directory (BuilderSection.launch {} report.site)
          report.site.targets := by
        rw [hsite]
        exact keepsTo_pageWriter _ ⟨site.generated, by decide, by decide⟩
          ⟨site.output, by decide, by decide⟩
      have hsearched : ((find (name "/r")).leaves c s.asking).LinkFree := by
        rw [Locator.leaves_given]
        exact hlinks
      have htwice := build_twice_eq hsearched entersDirectory_pageWriter hrun hkeeps rfl
        (Locator.leaves_given _ _) hrun' (by rw [hsite, hsite'])
      exact ⟨report, report', s', again', hrun, hrun', by rw [hremoved, hsite], htwice.1⟩
    · cases hruns
  · cases hruns

/-- A version control program that touches the tree can make a second build find more than the output.
    Here it makes the generated directory whenever it is asked, and answers the same root; the builder
    changes nothing. The second build finds the generated directory and deletes it. -/
theorem build_twice_finds_generated_of_busy_locator :
    let name := Bytes.ofString
    let c : Context := {
      directory := [name "r"]
      launch := fun t l => .ok {
        ending := .exited 0, errors := []
        tree := if l.arguments = Locator.question then
          t.put (name "generated") [name "docs", name "r"] .directory else t
        output := name "/r\n" } }
    let s : Session := {
      tree := (FileTree.bare.put (name "r") [] .directory).put (name "docs") [name "r"] .directory }
    let find := (Locator.asked "git").root
    s.tree.LinkFree ∧
    ∃ report report' s' again', (build find (name "/r") {} {}).run c s = .ok report s' ∧
      (build find (name "/r") {} {}).run c s' = .ok report' again' ∧
      report'.site.root = report.site.root ∧
      (∀ t finished, c.launch t (BuilderSection.launch {} report.site) = .ok finished →
        finished.tree = t) ∧
      report'.removed = [report.site.generated] ∧
      ¬ (report'.removed = [] ∨ report'.removed = [report.site.output]) := by
  intro name c s find
  let site : Site := {
    root := name "/r", sources := name "/r/docs", generated := name "/r/docs/generated"
    output := name "/r/docs/_build" }
  refine ⟨(FileTree.linkFree_bare.put (by simp)).put (by simp), ?_⟩
  have hruns : (match (build find (name "/r") {} {}).run c s with
      | .ok report s' =>
        match (build find (name "/r") {} {}).run c s' with
        | .ok report' _ => decide (report.site = site ∧ report'.site = site ∧
            report'.removed = [site.generated])
        | .error _ _ => false
      | .error _ _ => false) = true := by decide +kernel
  split at hruns
  · next report s' hrun =>
    split at hruns
    · next report' again' hrun' =>
      obtain ⟨hsite, hsite', hremoved⟩ := of_decide_eq_true hruns
      have hquestion : (BuilderSection.launch {} site).arguments ≠ Locator.question := by decide
      refine ⟨report, report', s', again', hrun, hrun', by rw [hsite, hsite'], ?_, ?_, ?_⟩
      · intro t finished hlaunch
        rw [hsite] at hlaunch
        obtain rfl := Except.ok.inj hlaunch
        simp only [if_neg hquestion]
      · rw [hremoved, hsite]
      · rw [hremoved, hsite]
        decide
    · cases hruns
  · cases hruns

end DocBuild
