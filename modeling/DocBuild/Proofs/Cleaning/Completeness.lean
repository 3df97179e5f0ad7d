import DocBuild.Proofs.Build.Run
import DocBuild.Proofs.Site.Resolution

namespace DocBuild

open Bytes (dot)
open FileTree (Under)

/-- What a complete cleaning has done: nothing is left where the two directories were, and the root
    names the directory that it named before. -/
structure Site.Cleared (site : Site) (cwd : Location) (before after : FileTree) : Prop where
  gone : ∀ p ∈ site.targets, ∀ l e, before.entry cwd .keep p = .ok (l, e) → after.get? l = none
  rooted : ∃ base, before.entry cwd .follow site.root = .ok (base, .directory) ∧
    after.entry cwd .follow site.root = .ok (base, .directory)

/-- The lookup of the root passes nothing that is to be deleted. -/
def Site.RootOutside (site : Site) (cwd : Location) (t : FileTree) : Prop :=
  ∀ p ∈ site.targets, ∀ v ∈ t.trailOf cwd .follow site.root, ¬ t.Under cwd p v

instance (site : Site) (cwd : Location) (t : FileTree) : Decidable (site.RootOutside cwd t) :=
  inferInstanceAs (Decidable (∀ p ∈ site.targets, ∀ v ∈ t.trailOf cwd .follow site.root,
    ¬ t.Under cwd p v))

/-- Deletions below a root leave nothing of what their paths named at the start, as long as the
    lookup of the root stays out of it. -/
theorem gone_removeAll {c : Context} {s s' : Session} {root : Path} {base : Location} {ps : List Path}
    {removed : List Path} (hlinks : s.tree.LinkFree)
    (hroot : s.tree.entry c.directory .follow root = .ok (base, .directory))
    (hps : ∀ p ∈ ps, ∃ q : Path, q.Inner ∧ p = root.join q)
    (hout : ∀ p ∈ ps, ∀ v ∈ s.tree.trailOf c.directory .follow root, ¬ s.tree.Under c.directory p v)
    (hrun : (removeAll ps).run c s = .ok removed s') :
    ∀ p ∈ ps, ∀ l e, s.tree.entry c.directory .keep p = .ok (l, e) → s'.tree.get? l = none := by
  induction ps generalizing s removed with
  | nil =>
    intro p hp
    cases hp
  | cons p ps ih =>
    obtain ⟨b, between, more, hfirst, hrest, -⟩ := run_removeAll_cons_eq_ok_iff.1 hrun
    have hp := List.mem_cons_self (a := p) (l := ps)
    have hremoval := FileTree.removal_removeForced s.tree c.obstacles c.directory p
    rw [removeForced_of_run hfirst] at hremoval
    have hlost : s.tree.Loses between.tree (s.tree.Under c.directory p) := hremoval.loses
    have hlater : s'.tree.PartOf between.tree := by
      have hloses := loses_removeAll (c := c) (s := between) ps
      rw [Work.leaves_of_ok hrest] at hloses
      exact hloses.partOf
    have hroot' := FileTree.entry_of_loses hlost (by decide) hroot (hout p hp)
    intro q hq l e hentry
    obtain ⟨inner, hinner, rfl⟩ := hps q hq
    rcases List.mem_cons.1 hq with hsame | hmem
    · subst hsame
      refine hlater.get?_eq_none (hremoval.taken.2 l ⟨l, e, hentry, List.suffix_refl l, ?_⟩)
      intro _ v hv hbelow
      rcases FileTree.mem_trailOf_join hlinks hroot hinner hentry hv with hbefore | habove
      · exact absurd ⟨l, e, hentry, hbelow⟩ (hout _ hq v hbefore)
      · exact habove.eq_of_length_le hbelow.length_le
    by_cases hleft : between.tree.get? l = none
    · exact hlater.get?_eq_none hleft
    have hentry' := FileTree.entry_join_of_loses hlost hlinks hroot (hout p hp) hinner (by decide)
      hentry hleft
    refine ih (hlinks.of_partOf hlost.partOf) hroot' (fun r hr => hps r (List.mem_cons_of_mem p hr))
      ?_ hrest _ hmem l e hentry'
    intro r hr v hv hunder
    rw [← FileTree.trailOf_eq hlost.partOf (by decide) hroot'] at hv
    exact hout r (List.mem_cons_of_mem p hr) v hv (hunder.of_partOf hlost.partOf)

/-- A root that is spelt without `..` leads through nothing below it. -/
theorem Site.rootOutside_of_no_up {cwd base : Location} {t : FileTree} {layout : LayoutSection}
    {site : Site} (hlinks : t.LinkFree) (hsite : Site.resolve site.root layout = .ok site)
    (hroot : t.entry cwd .follow site.root = .ok (base, .directory))
    (hdown : [dot, dot] ∉ site.root.segments) : site.RootOutside cwd t := by
  rintro p hp v hv ⟨l, e, hentry, hbelow⟩
  obtain ⟨inner, hinner, rfl⟩ := Site.exists_inner_of_mem_targets hsite hp
  rw [FileTree.mem_trailOf_iff hroot hlinks.meetsNoLink] at hv
  have habove : v <:+ site.root.place cwd := Path.suffix_place_of_passes hdown hv
  rw [FileTree.eq_place_of_entry hentry hlinks.meetsNoLink,
    hinner.place_join] at hbelow
  have hlength := (hbelow.trans habove).length_le
  rw [List.length_append, List.length_reverse] at hlength
  have hnamed := List.length_pos_iff.2 hinner.named
  omega

/-- A successful cleaning below a given root is complete exactly when the lookup of the root passes
    nothing that is deleted; so it is whenever the root is spelt without `..`. Otherwise the second
    directory may be left as it was, or the root may name nothing any more, and the cleaning still
    reports success. -/
theorem cleared_iff_rootOutside {c : Context} {s s' : Session} {root start : Path}
    {layout : LayoutSection} {site : Site} {removed : List Path} (hlinks : s.tree.LinkFree)
    (hrun : (clean (Locator.given root).root start layout).run c s = .ok (site, removed) s') :
    (site.Cleared c.directory s.tree s'.tree ↔ site.RootOutside c.directory s.tree) ∧
      ([dot, dot] ∉ site.root.segments → site.Cleared c.directory s.tree s'.tree) := by
  obtain ⟨found, asked, after, ready, cleaned, hasked, hfind, hsite, hready, hclean, hlast⟩ :=
    run_clean_eq_ok hrun
  rw [Site.clean] at hclean
  obtain ⟨rfl, rfl, hdirectory⟩ := Locator.run_given_eq_ok hfind
  have hspelt := Site.root_eq hsite
  rw [← hspelt] at hsite hdirectory
  obtain ⟨base, hroot⟩ := FileTree.isDirectoryPath_iff.1 hdirectory
  have htree : ready.tree = s.tree := hready.trans hasked
  rw [hasked] at hroot
  have hlost : s.tree.Loses s'.tree fun k => ∃ p ∈ site.targets, s.tree.Under c.directory p k := by
    have hloses := loses_removeAll (c := c) (s := ready) site.targets
    rwa [Work.leaves_of_ok hclean, htree, ← hlast] at hloses
  have hcleared : site.RootOutside c.directory s.tree → site.Cleared c.directory s.tree s'.tree := by
    intro hout
    refine ⟨?_, base, hroot, ?_⟩
    · rw [hlast]
      rw [← htree] at hroot hlinks hout ⊢
      exact gone_removeAll hlinks hroot (fun p hp => Site.exists_inner_of_mem_targets hsite hp) hout
        hclean
    · exact FileTree.entry_of_loses hlost (by decide) hroot
        fun v hv ⟨p, hp, hunder⟩ => hout p hp v hv hunder
  refine ⟨⟨?_, hcleared⟩, ?_⟩
  · rintro hcleared p hp v hv ⟨l, e, hentry, hbelow⟩
    obtain ⟨base', hbefore, hafter⟩ := hcleared.rooted
    have hkept := (FileTree.entry_eq_ok_iff_of_partOf hlost.partOf (by decide) hbefore).1 hafter v hv
    obtain ⟨f, hf⟩ := Option.ne_none_iff_exists'.1 hkept
    obtain ⟨g, hg⟩ := FileTree.exists_of_suffix hf hbelow
    rw [hcleared.gone p hp l e hentry] at hg
    cases hg
  · exact fun hdown => hcleared (Site.rootOutside_of_no_up hlinks hsite hroot hdown)

/-- A repository in `/r` with generated files and built documentation. -/
def builtTree : FileTree :=
  let name := Bytes.ofString
  let t := (FileTree.bare.put (name "r") [] .directory).put (name "docs") [name "r"] .directory
  let t := t.put (name "generated") [name "docs", name "r"] .directory
  let t := t.put (name "_build") [name "docs", name "r"] .directory
  t.put (name "index.html") [name "_build", name "docs", name "r"] (.file [] false)

theorem linkFree_builtTree : builtTree.LinkFree := by
  dsimp only [builtTree]
  iterate 5 refine FileTree.LinkFree.put ?_ (by simp)
  exact FileTree.linkFree_bare

/-- A root that leads through the generated files is lost with them, and the output stays. -/
theorem not_cleared_of_builtTree :
    let name := Bytes.ofString
    let site : Site := {
      root := name "/r/docs/generated/../.."
      sources := name "/r/docs/generated/../../docs"
      generated := name "/r/docs/generated/../../docs/generated"
      output := name "/r/docs/generated/../../docs/_build" }
    let c : Context := { directory := [name "r"], launch := fun _ _ => .error .zeroByte }
    let s : Session := { tree := builtTree }
    ∃ s', (clean (Locator.given (name "docs/generated/../..")).root (name "/r") {}).run c s =
        .ok (site, [site.generated]) s' ∧
      s.tree.LinkFree ∧ ¬ site.Cleared c.directory s.tree s'.tree ∧
      s'.tree.get? [name "index.html", name "_build", name "docs", name "r"] =
        some (.file [] false) ∧
      s'.tree.isDirectoryPath c.directory site.root = false := by
  intro name site c s
  have hrun : (match (clean (Locator.given (name "docs/generated/../..")).root (name "/r") {}).run c s with
      | .ok (found, removed) s' => decide (found = site ∧ removed = [site.generated] ∧
          s'.tree.get? [name "index.html", name "_build", name "docs", name "r"] =
            some (.file [] false) ∧ s'.tree.isDirectoryPath c.directory site.root = false)
      | .error _ _ => false) = true := by decide +kernel
  split at hrun
  · next found removed s' hclean =>
    obtain ⟨rfl, rfl, houtput, hroot⟩ := of_decide_eq_true hrun
    refine ⟨s', hclean, linkFree_builtTree, ?_, houtput, hroot⟩
    rw [(cleared_iff_rootOutside linkFree_builtTree hclean).1]
    decide +kernel
  · cases hrun

end DocBuild
