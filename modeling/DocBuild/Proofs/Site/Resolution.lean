import DocBuild.Proofs.Path.Place
import DocBuild.Proofs.Sequence
import DocBuild.Site

namespace DocBuild

namespace LayoutSection

/-- The names that lead from the root to the sources. -/
def sourceNames (layout : LayoutSection) : List Name :=
  Path.names (Bytes.ofString layout.configDir)

/-- The names that lead from the root to the generated files. -/
def generatedNames (layout : LayoutSection) : List Name :=
  layout.sourceNames ++ Path.names (Bytes.ofString layout.generatedDir)

/-- The names that lead from the root to the output. -/
def outputNames (layout : LayoutSection) : List Name :=
  Path.names (Bytes.ofString layout.outputDir)

end LayoutSection

namespace Path

theorem root_mem_components {p : Path} (h : p.isAbsolute = true) : .root ∈ p.components := by
  simp [components, h]

theorem up_mem_components {p : Path} (h : [Bytes.dot, Bytes.dot] ∈ p.segments) :
    .up ∈ p.components := by
  have hup : component? [Bytes.dot, Bytes.dot] = some .up := rfl
  exact List.mem_append_right _ (List.mem_filterMap.2 ⟨_, h, hup⟩)

theorem components_of_relative {p : Path} (hrelative : p.isAbsolute = false)
    (hdown : [Bytes.dot, Bytes.dot] ∉ p.segments) :
    p.components = (if p.beginsHere then [.here] else []) ++ p.names.map .name := by
  rw [components, filterMap_component? hdown, names, hrelative]
  rfl

end Path

namespace Site

/-- A configured value is accepted exactly when it is an inner path. -/
theorem inner?_eq_ok_iff {field value : String} {p : Path} :
    inner? field value = .ok p ↔ p = Bytes.ofString value ∧ p.Inner := by
  constructor
  · intro h
    unfold inner? at h
    dsimp only at h
    split at h
    · cases h
    next hany =>
    split at h
    · cases h
    next hall =>
    obtain rfl := Except.ok.inj h
    refine ⟨rfl, ?_⟩
    have hrelative : Path.isAbsolute (Bytes.ofString value) = false := by
      refine eq_false_of_ne_true fun habsolute => hany ?_
      exact List.any_eq_true.2 ⟨.root, Path.root_mem_components habsolute, rfl⟩
    have hdown : [Bytes.dot, Bytes.dot] ∉ Path.segments (Bytes.ofString value) := by
      intro hup
      exact hany (List.any_eq_true.2 ⟨.up, Path.up_mem_components hup, rfl⟩)
    refine ⟨hrelative, hdown, fun hnone => hall ?_⟩
    rw [Path.components_of_relative hrelative hdown, hnone]
    cases Path.beginsHere (Bytes.ofString value) <;> rfl
  · rintro ⟨rfl, hrelative, hdown, hnamed⟩
    obtain ⟨name, names, hnames⟩ := List.exists_cons_of_ne_nil hnamed
    have hcomponents := Path.components_of_relative hrelative hdown
    rw [hnames] at hcomponents
    unfold inner?
    dsimp only
    rw [hcomponents, if_neg, if_neg]
    · simp
    · cases Path.beginsHere (Bytes.ofString value) <;> simp

theorem spare_eq_ok_iff {field : String} {target sources : Path} {u : Unit} :
    spare field target sources = .ok u ↔ sources.startsWith target = false := by
  unfold spare
  split <;> simp_all

/-- An accepted layout consists of inner paths, and neither directory to be deleted begins the
    sources. -/
theorem resolve_eq_ok_iff {root : Path} {layout : LayoutSection} {site : Site} :
    resolve root layout = .ok site ↔
      (Path.Inner (Bytes.ofString layout.configDir) ∧
        Path.Inner (Bytes.ofString layout.generatedDir) ∧
        Path.Inner (Bytes.ofString layout.outputDir)) ∧
      (site.sources.startsWith site.generated = false ∧
        site.sources.startsWith site.output = false) ∧
      site = {
        root
        sources := root.join (Bytes.ofString layout.configDir)
        generated := (root.join (Bytes.ofString layout.configDir)).join
          (Bytes.ofString layout.generatedDir)
        output := root.join (Bytes.ofString layout.outputDir) } := by
  unfold resolve
  simp only [Sequence.bind_eq_ok_iff, inner?_eq_ok_iff, spare_eq_ok_iff, pure, Except.pure]
  constructor
  · rintro ⟨_, ⟨rfl, hsources⟩, _, ⟨rfl, hgenerated⟩, _, ⟨rfl, houtput⟩, _, hspare, _, hspare', h⟩
    obtain rfl := Except.ok.inj h
    exact ⟨⟨hsources, hgenerated, houtput⟩, ⟨hspare, hspare'⟩, rfl⟩
  · rintro ⟨⟨hsources, hgenerated, houtput⟩, ⟨hspare, hspare'⟩, rfl⟩
    exact ⟨_, ⟨rfl, hsources⟩, _, ⟨rfl, hgenerated⟩, _, ⟨rfl, houtput⟩, (), hspare, (), hspare', rfl⟩

section Accepted

variable {root : Path} {layout : LayoutSection} {site : Site}

theorem root_eq (hsite : resolve root layout = .ok site) : site.root = root := by
  obtain ⟨-, -, rfl⟩ := resolve_eq_ok_iff.1 hsite
  rfl

theorem place_sources (hsite : resolve root layout = .ok site) (cwd : Location) :
    site.sources.place cwd = layout.sourceNames.reverse ++ root.place cwd := by
  obtain ⟨⟨hsources, -, -⟩, -, rfl⟩ := resolve_eq_ok_iff.1 hsite
  exact hsources.place_join cwd

/-- The generated files are reached from the root by an inner path with their names. -/
theorem generated_eq_join (hsite : resolve root layout = .ok site) :
    ∃ q : Path, q.Inner ∧ q.names = layout.generatedNames ∧ site.generated = root.join q := by
  obtain ⟨⟨hsources, hgenerated, -⟩, -, rfl⟩ := resolve_eq_ok_iff.1 hsite
  exact ⟨_, hsources.join hgenerated, hsources.names_join hgenerated,
    Path.join_assoc hsources hgenerated⟩

theorem output_eq_join (hsite : resolve root layout = .ok site) :
    ∃ q : Path, q.Inner ∧ q.names = layout.outputNames ∧ site.output = root.join q := by
  obtain ⟨⟨-, -, houtput⟩, -, rfl⟩ := resolve_eq_ok_iff.1 hsite
  exact ⟨_, houtput, rfl, rfl⟩

theorem place_generated (hsite : resolve root layout = .ok site) (cwd : Location) :
    site.generated.place cwd = layout.generatedNames.reverse ++ root.place cwd := by
  obtain ⟨q, hq, hnames, hjoin⟩ := generated_eq_join hsite
  rw [hjoin, hq.place_join, hnames]

theorem place_output (hsite : resolve root layout = .ok site) (cwd : Location) :
    site.output.place cwd = layout.outputNames.reverse ++ root.place cwd := by
  obtain ⟨q, hq, hnames, hjoin⟩ := output_eq_join hsite
  rw [hjoin, hq.place_join, hnames]

theorem passes_generated (hsite : resolve root layout = .ok site) {cwd v : Location} :
    site.generated.passes cwd v ↔ root.passes cwd v ∨
      ∃ names, names <+: layout.generatedNames ∧ v = names.reverse ++ root.place cwd := by
  obtain ⟨q, hq, hnames, hjoin⟩ := generated_eq_join hsite
  rw [hjoin, hq.passes_join, hnames]

theorem passes_output (hsite : resolve root layout = .ok site) {cwd v : Location} :
    site.output.passes cwd v ↔ root.passes cwd v ∨
      ∃ names, names <+: layout.outputNames ∧ v = names.reverse ++ root.place cwd := by
  obtain ⟨q, hq, hnames, hjoin⟩ := output_eq_join hsite
  rw [hjoin, hq.passes_join, hnames]

/-- What is deleted before a build is reached from the root by names alone. -/
theorem exists_inner_of_mem_targets (hsite : resolve root layout = .ok site) {p : Path}
    (hp : p ∈ site.targets) : ∃ q : Path, q.Inner ∧ p = root.join q := by
  simp only [targets, List.mem_cons, List.not_mem_nil, or_false] at hp
  rcases hp with rfl | rfl
  · obtain ⟨q, hq, -, hjoin⟩ := generated_eq_join hsite
    exact ⟨q, hq, hjoin⟩
  · obtain ⟨q, hq, -, hjoin⟩ := output_eq_join hsite
    exact ⟨q, hq, hjoin⟩

/-- The generated files lie strictly below the sources. -/
theorem generated_not_above_sources (hsite : resolve root layout = .ok site) (cwd : Location) :
    ¬ site.generated.place cwd <:+ site.sources.place cwd := by
  obtain ⟨⟨-, hgenerated, -⟩, -, -⟩ := resolve_eq_ok_iff.1 hsite
  rw [place_generated hsite, place_sources hsite, Path.suffix_iff_names_prefix]
  intro hprefix
  have hlength := hprefix.length_le
  rw [LayoutSection.generatedNames, List.length_append] at hlength
  have hnamed := List.length_pos_iff.2 hgenerated.named
  omega

/-- The output is neither the sources nor one of their ancestors. -/
theorem output_not_above_sources (hsite : resolve root layout = .ok site) (hroot : root ≠ [])
    (cwd : Location) : ¬ site.output.place cwd <:+ site.sources.place cwd := by
  rw [place_output hsite, place_sources hsite, Path.suffix_iff_names_prefix]
  obtain ⟨⟨hsources, -, houtput⟩, ⟨-, hspare⟩, rfl⟩ := resolve_eq_ok_iff.1 hsite
  intro hprefix
  have hcovers := (Path.startsWith_join_iff hroot hsources houtput).2 hprefix
  rw [hspare] at hcovers
  cases hcovers

end Accepted

end Site
end DocBuild
