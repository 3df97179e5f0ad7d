import DocBuild.Proofs.Build.Effects

namespace DocBuild

open FileTree (Removal Taken Under)

namespace Site

variable {cwd o : Location} {built left : FileTree} {root : Path} {layout : LayoutSection} {site : Site}

/-- The place lies below generated files that lie inside `o`. -/
def Scratch (site : Site) (cwd o : Location) (built : FileTree) (k : Location) : Prop :=
  ∃ g e, built.entry cwd .keep site.generated = .ok (g, e) ∧ o <:+ g ∧ g ≠ o ∧ g <:+ k ∧ k ≠ g

/-- What is to be left of the output in `o`: it is where it was, with the files in it, except those
    below generated files that lie inside it. -/
structure OutputKept (site : Site) (cwd o : Location) (built left : FileTree) : Prop where
  there : left.entry cwd .follow site.output = .ok (o, .directory)
  files : ∀ k content executable, o <:+ k → built.get? k = some (.file content executable) →
    ¬ site.Scratch cwd o built k → left.get? k = some (.file content executable)

/-- A successful deletion of the generated files keeps the output exactly when it takes nothing that
    the lookup of the output passes and, of the files in it, none but scratch files. -/
theorem outputKept_iff_taken {removed : Bool}
    (hremoval : Removal built cwd site.generated (left, .ok removed))
    (ho : built.entry cwd .follow site.output = .ok (o, .directory)) :
    site.OutputKept cwd o built left ↔
      (∀ v ∈ built.trailOf cwd .follow site.output, ¬ built.Taken cwd site.generated v) ∧
      ∀ k content executable, o <:+ k → built.get? k = some (.file content executable) →
        built.Taken cwd site.generated k → site.Scratch cwd o built k := by
  obtain ⟨hlost, hgone⟩ := hremoval.taken
  constructor
  · rintro ⟨hthere, hfiles⟩
    constructor
    · intro v hv htaken
      exact (FileTree.entry_eq_ok_iff_of_partOf hlost.partOf (by decide) ho).1 hthere v hv
        (hgone v htaken)
    · intro k content executable hk hfile htaken
      refine Classical.byContradiction fun hscratch => ?_
      have hleft := hfiles k content executable hk hfile hscratch
      rw [hgone k htaken] at hleft
      cases hleft
  · rintro ⟨htrail, hfiles⟩
    refine ⟨FileTree.entry_of_loses hlost (by decide) ho htrail, ?_⟩
    intro k content executable hk hfile hscratch
    rw [hlost.get?_eq fun htaken => hscratch (hfiles k content executable hk hfile htaken), hfile]

/-- The generated files are not, instead of a directory, one file in `o`. -/
def NoFileInside (site : Site) (cwd o : Location) (built : FileTree) : Prop :=
  ∀ g content executable, built.entry cwd .keep site.generated = .ok (g, .file content executable) →
    ¬ o <:+ g

/-- Without links the generated files lie where their names lead from the root. -/
theorem eq_names_of_entry_generated (hsite : resolve root layout = .ok site)
    (hgenerated : built.MeetsNoLink cwd .keep site.generated) {g : Location} {e : Entry}
    (hentry : built.entry cwd .keep site.generated = .ok (g, e)) :
    g = layout.generatedNames.reverse ++ root.place cwd := by
  rw [FileTree.eq_place_of_entry hentry hgenerated, place_generated hsite]

/-- Without links the way to the output passes what the root passes, and the names from there on. -/
theorem mem_trailOf_output_iff (hsite : resolve root layout = .ok site)
    (houtput : built.MeetsNoLink cwd .follow site.output)
    (ho : built.entry cwd .follow site.output = .ok (o, .directory)) (v : Location) :
    v ∈ built.trailOf cwd .follow site.output ↔ root.passes cwd v ∨
      ∃ names, names <+: layout.outputNames ∧ v = names.reverse ++ root.place cwd := by
  rw [FileTree.mem_trailOf_iff ho houtput, passes_output hsite]

/-- Without links the way to the generated files passes none of them, so the directory itself goes,
    unless the root is spelt through them. -/
theorem taken_of_under (hsite : resolve root layout = .ok site)
    (hgenerated : built.MeetsNoLink cwd .keep site.generated)
    (hroot : ∀ v, root.passes cwd v → ¬ built.Taken cwd site.generated v) {k : Location}
    (h : built.Under cwd site.generated k) : built.Taken cwd site.generated k := by
  obtain ⟨g, e, hentry, hbelow⟩ := h
  refine ⟨g, e, hentry, hbelow, fun _ v hv hlow => Decidable.byContradiction fun hne => ?_⟩
  rw [FileTree.mem_trailOf_iff hentry hgenerated, passes_generated hsite] at hv
  rcases hv with hv | ⟨names, hnames, rfl⟩
  · exact hroot v hv ⟨g, e, hentry, hlow, fun heq => absurd heq hne⟩
  · have habove : names.reverse ++ root.place cwd <:+ g := by
      rw [eq_names_of_entry_generated hsite hgenerated hentry, Path.suffix_iff_names_prefix]
      exact hnames
    exact hne (habove.eq_of_length_le hlow.length_le)

/-- Generated files that have an output in them are there. -/
theorem exists_generated_of_inside {removed : Bool} (hsite : resolve root layout = .ok site)
    (hremoval : Removal built cwd site.generated (left, .ok removed))
    (hgenerated : built.MeetsNoLink cwd .keep site.generated)
    (houtput : built.MeetsNoLink cwd .follow site.output)
    (ho : built.entry cwd .follow site.output = .ok (o, .directory))
    (hinside : layout.generatedNames <+: layout.outputNames) :
    ∃ g e, built.entry cwd .keep site.generated = .ok (g, e) := by
  rcases hremoval.missing_or_entry with hmissing | hentry
  · obtain ⟨q, hq, -, hjoin⟩ := generated_eq_join hsite
    obtain ⟨v, hv, hnone⟩ := FileTree.exists_missing_of_entry hmissing
      (hjoin ▸ hq.join_ne_nil root) hgenerated
    have hpassed : v ∈ built.trailOf cwd .follow site.output := by
      rw [passes_generated hsite] at hv
      rw [mem_trailOf_output_iff hsite houtput ho]
      exact hv.imp_right fun ⟨names, hnames, hv⟩ => ⟨names, hnames.trans hinside, hv⟩
    obtain ⟨f, hf⟩ := FileTree.exists_of_mem_trailOf ho hpassed
    rw [hnone] at hf
    cases hf
  · exact hentry

/-- Where no link is met, a successful deletion of the generated files keeps the output exactly when
    the output does not lie in them, the root is not spelt through them, and they are not one file
    in the output. -/
theorem outputKept_iff_names {removed : Bool} (hsite : resolve root layout = .ok site)
    (hremoval : Removal built cwd site.generated (left, .ok removed))
    (hgenerated : built.MeetsNoLink cwd .keep site.generated)
    (houtput : built.MeetsNoLink cwd .follow site.output)
    (ho : built.entry cwd .follow site.output = .ok (o, .directory)) :
    site.OutputKept cwd o built left ↔
      ¬ layout.generatedNames <+: layout.outputNames ∧
      (∀ v, root.passes cwd v → ¬ built.Under cwd site.generated v) ∧
      site.NoFileInside cwd o built := by
  have htrail := mem_trailOf_output_iff hsite houtput ho
  rw [outputKept_iff_taken hremoval ho]
  constructor
  · rintro ⟨hout, hfiles⟩
    have htaken : ∀ v, built.Under cwd site.generated v → built.Taken cwd site.generated v :=
      fun v hunder => taken_of_under hsite hgenerated
        (fun w hw => hout w ((htrail w).2 (.inl hw))) hunder
    refine ⟨fun hinside => ?_, ?_, ?_⟩
    · obtain ⟨g, e, hentry⟩ :=
        exists_generated_of_inside hsite hremoval hgenerated houtput ho hinside
      have habove : g <:+ layout.outputNames.reverse ++ root.place cwd := by
        rw [eq_names_of_entry_generated hsite hgenerated hentry, Path.suffix_iff_names_prefix]
        exact hinside
      exact hout _ ((htrail _).2 (.inr ⟨_, List.prefix_refl _, rfl⟩))
        (htaken _ ⟨g, e, hentry, habove⟩)
    · exact fun v hv hunder => hout v ((htrail v).2 (.inl hv)) (htaken v hunder)
    · intro g content executable hentry hinner
      obtain ⟨g', e', hentry', -, -, -, hne⟩ := hfiles g content executable hinner
        (FileTree.entry_eq_ok_iff.1 hentry).2 (htaken g ⟨g, _, hentry, List.suffix_refl g⟩)
      rw [hentry] at hentry'
      cases hentry'
      exact hne rfl
  · rintro ⟨hapart, hroot, hinside⟩
    have hout : ∀ v ∈ built.trailOf cwd .follow site.output, ¬ built.Under cwd site.generated v := by
      rintro v hv ⟨g, e, hentry, hbelow⟩
      rcases (htrail v).1 hv with hv | ⟨names, hnames, rfl⟩
      · exact hroot v hv ⟨g, e, hentry, hbelow⟩
      · rw [eq_names_of_entry_generated hsite hgenerated hentry,
          Path.suffix_iff_names_prefix] at hbelow
        exact hapart (hbelow.trans hnames)
    refine ⟨fun v hv htaken => hout v hv htaken.under, ?_⟩
    intro k content executable hk hfile htaken
    obtain ⟨g, e, hentry, hbelow⟩ := htaken.under
    have hnotAbove : ¬ g <:+ o := fun habove =>
      hout o (FileTree.mem_trailOf ho) ⟨g, e, hentry, habove⟩
    have hinner : o <:+ g := (List.suffix_or_suffix_of_suffix hbelow hk).resolve_left hnotAbove
    refine ⟨g, e, hentry, hinner, ?_, hbelow, ?_⟩
    · rintro rfl
      exact hnotAbove (List.suffix_refl g)
    · rintro rfl
      have hg := (FileTree.entry_eq_ok_iff.1 hentry).2
      rw [hfile] at hg
      cases hg
      exact hinside k content executable hentry hinner

end Site

/-- Whether the output of a successful build is left as the builder left it. What the deletion of the
    generated files takes decides it; where no link is met, so does the layout: a layout that places
    the output in the generated files is accepted, and the build loses the output. -/
theorem build_keeps_output_iff {c : Context} {s s' : Session} {find : RootFinder} {start : Path}
    {layout : LayoutSection} {builder : BuilderSection} {report : BuildReport}
    (hrun : (build find start layout builder).run c s = .ok report s') :
    ∃ found cleaned built,
      BuildTrace c find start layout builder report s.tree found cleaned built s'.tree ∧
      ∀ o, built.entry c.directory .follow report.site.output = .ok (o, .directory) →
        (report.site.OutputKept c.directory o built s'.tree ↔
          (∀ v ∈ built.trailOf c.directory .follow report.site.output,
            ¬ built.Taken c.directory report.site.generated v) ∧
          ∀ k content executable, o <:+ k → built.get? k = some (.file content executable) →
            built.Taken c.directory report.site.generated k →
              report.site.Scratch c.directory o built k) ∧
        (built.MeetsNoLink c.directory .keep report.site.generated →
          built.MeetsNoLink c.directory .follow report.site.output →
          (report.site.OutputKept c.directory o built s'.tree ↔
            ¬ layout.generatedNames <+: layout.outputNames ∧
            (∀ v, report.site.root.passes c.directory v →
              ¬ built.Under c.directory report.site.generated v) ∧
            report.site.NoFileInside c.directory o built)) := by
  obtain ⟨cleaned, built, htrace⟩ := BuildTrace.of_run hrun
  have hremoval := FileTree.removal_removeForced built c.obstacles c.directory report.site.generated
  rw [htrace.finishing] at hremoval
  refine ⟨_, cleaned, built, htrace, fun o ho => ⟨?_, fun hgenerated houtput => ?_⟩⟩
  · exact Site.outputKept_iff_taken hremoval ho
  · exact Site.outputKept_iff_names htrace.accepted hremoval hgenerated houtput ho

/-- A repository in `/r` with a page of documentation among the generated files. -/
def pagedTree : FileTree :=
  let name := Bytes.ofString
  let t := (FileTree.bare.put (name "r") [] .directory).put (name "docs") [name "r"] .directory
  let t := t.put (name "generated") [name "docs", name "r"] .directory
  let t := t.put (name "html") [name "generated", name "docs", name "r"] .directory
  t.put (name "index.html") [name "html", name "generated", name "docs", name "r"] (.file [] false)

/-- A build whose output lies in the generated files loses the page that the builder has written. -/
theorem build_loses_output_of_pagedTree :
    let name := Bytes.ofString
    let layout : LayoutSection := { outputDir := "docs/generated/html" }
    let site : Site := {
      root := name "/r/", sources := name "/r/docs", generated := name "/r/docs/generated"
      output := name "/r/docs/generated/html" }
    let o := [name "html", name "generated", name "docs", name "r"]
    let c : Context := {
      directory := [name "r"]
      launch := fun _ _ => .ok { ending := .exited 0, tree := pagedTree, output := [], errors := [] } }
    let s : Session := {
      tree := (FileTree.bare.put (name "r") [] .directory).put (name "docs") [name "r"] .directory }
    ∃ report s', (build (Locator.given []).root (name "/r") layout {}).run c s = .ok report s' ∧
      report.site = site ∧ s'.tree.get? [name "docs", name "r"] = some .directory ∧
      s'.tree.get? (name "generated" :: [name "docs", name "r"]) = none ∧
      pagedTree.entry c.directory .follow site.output = .ok (o, .directory) ∧
      ¬ site.OutputKept c.directory o pagedTree s'.tree := by
  intro name layout site o c s
  have hrun : (match (build (Locator.given []).root (name "/r") layout {}).run c s with
      | .ok report s' => decide (report.site = site ∧
          s'.tree.get? [name "docs", name "r"] = some .directory ∧
          s'.tree.get? (name "generated" :: [name "docs", name "r"]) = none)
      | .error _ _ => false) = true := by decide +kernel
  split at hrun
  · next report s' hbuild =>
    obtain ⟨hsite, hsources, hgenerated⟩ := of_decide_eq_true hrun
    have ho : pagedTree.entry c.directory .follow site.output = .ok (o, .directory) := by rfl
    refine ⟨report, s', hbuild, hsite, hsources, hgenerated, ho, ?_⟩
    obtain ⟨found, cleaned, built, htrace, hiff⟩ := build_keeps_output_iff hbuild
    obtain ⟨finished, hlaunch, -, rfl⟩ := htrace.building
    cases hlaunch
    rw [hsite] at hiff
    rw [(hiff o ho).2 (by decide +kernel) (by decide +kernel)]
    exact fun hkept => hkept.1 (by decide +kernel)
  · cases hrun

end DocBuild
