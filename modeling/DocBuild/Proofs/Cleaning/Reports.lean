import DocBuild.Proofs.Cleaning.Sources
import DocBuild.Proofs.FileTree.Respelling
import DocBuild.Proofs.Work.Requests

namespace DocBuild

variable {c : Context} {s s' : Session} {cwd : Location} {p : Path} {ps removed : List Path}

/-- A report on the deletion of paths: those that named something, in their order, and no string twice.
    Two of them have the same components only if the first ends in a `.` and the second named a symbolic
    link: the first deletion has then emptied the directory behind the link, and the second one has
    removed the link. -/
structure Reports (cwd : Location) (ps removed : List Path) (before after : FileTree) : Prop where
  sublist : removed.Sublist ps
  nodup : removed.Nodup
  respelt : removed.Pairwise fun p q => q.components = p.components →
    p.endsHere = true ∧ ∃ l target, before.entry cwd .keep q = .ok (l, .link target)
  found : ∀ p ∈ removed, ∃ l e, before.entry cwd .keep p = .ok (l, e)
  gone : ∀ p ∈ ps, after.entry cwd .keep p = .error (.system .noEntry)
  nil_iff : removed = [] ↔ after = before

theorem partOf_of_run_removeAll (h : (removeAll ps).run c s = .ok removed s') :
    s'.tree.PartOf s.tree := by
  have hlost := loses_removeAll (c := c) (s := s) ps
  rw [Work.leaves_of_ok h] at hlost
  exact hlost.partOf

/-- Deleting one path more, before the others, keeps the report truthful. -/
theorem Reports.cons {before between after : FileTree} {more : List Path} {b : Bool}
    {obstacles : FileTree.Obstacles}
    (hfirst : before.removeForced obstacles cwd p = (between, .ok b))
    (hpart : after.PartOf between) (h : Reports cwd ps more between after) :
    Reports cwd (p :: ps) (if b then p :: more else more) before after := by
  have hkeep : FileTree.Last.keep ≠ .create := by decide
  have hremoval := FileTree.removal_removeForced before obstacles cwd p
  rw [hfirst] at hremoval
  have hgone : ∀ q ∈ p :: ps, after.entry cwd .keep q = .error (.system .noEntry) := by
    intro q hq
    rcases List.mem_cons.1 hq with rfl | hq
    · exact FileTree.entry_missing_of_partOf hpart hkeep hremoval.missing
    · exact h.gone q hq
  cases b with
  | false =>
    obtain rfl := hremoval.eq_self
    exact ⟨h.sublist.cons p, h.nodup, h.respelt, h.found, hgone, h.nil_iff⟩
  | true =>
    have hbefore : ∃ l e, before.entry cwd .keep p = .ok (l, e) := by
      rcases hremoval.leaves with ⟨-, hremoved, -⟩ | ⟨l, e, hentry, -⟩
      · cases hremoved
      · exact ⟨l, e, hentry⟩
    obtain ⟨l, e, hentry⟩ := hbefore
    have hcheck := (FileTree.locate_eq_ok_iff.1 (FileTree.entry_eq_ok_iff.1 hentry).1).1
    refine ⟨h.sublist.cons_cons p, ?_, ?_, ?_, hgone, ?_⟩
    · refine List.nodup_cons.2 ⟨fun hmem => ?_, h.nodup⟩
      obtain ⟨m, f, hagain⟩ := h.found p hmem
      rw [hremoval.missing] at hagain
      cases hagain
    · refine List.pairwise_cons.2 ⟨fun q hq hsame => ?_, h.respelt.imp ?_⟩
      · obtain ⟨m, f, hagain⟩ := h.found q hq
        have hend : p.endsHere = true := by
          by_contra hend
          exact (FileTree.notHeld_of_removeForced hfirst).not_entry hcheck hsame
            (Bool.eq_false_iff.2 hend) hagain
        exact ⟨hend, m, FileTree.exists_link_of_endsHere hend hentry hremoval.loses.partOf
          hremoval.missing hsame hagain⟩
      · intro q q' hlater hsame
        obtain ⟨hend, m, target, hlink⟩ := hlater hsame
        exact ⟨hend, m, target, FileTree.entry_of_partOf hremoval.loses.partOf hkeep hlink⟩
    · intro q hq
      rcases List.mem_cons.1 hq with rfl | hq
      · exact ⟨l, e, hentry⟩
      · obtain ⟨m, f, hlater⟩ := h.found q hq
        exact ⟨m, f, FileTree.entry_of_partOf hremoval.loses.partOf hkeep hlater⟩
    · refine iff_of_false (List.cons_ne_nil p more) ?_
      rintro rfl
      obtain ⟨k, hthere, hlost⟩ := hremoval.exists_lost
      exact hthere (hpart.get?_eq_none hlost)

/-- Deleting paths in order reports truthfully. -/
theorem reports_removeAll (h : (removeAll ps).run c s = .ok removed s') :
    Reports c.directory ps removed s.tree s'.tree := by
  induction ps generalizing s removed with
  | nil =>
    cases h
    exact ⟨List.Sublist.slnil, List.nodup_nil, .nil, nofun, nofun, by simp⟩
  | cons p ps ih =>
    obtain ⟨b, between, more, hfirst, hrest, rfl⟩ := run_removeAll_cons_eq_ok_iff.1 h
    exact (ih hrest).cons (removeForced_of_run hfirst) (partOf_of_run_removeAll hrest)

/-- A cleaning that succeeds lists the directories that it found, each once, and leaves neither of them
    to be found; it lists none exactly if it has changed nothing. A second one right after it finds
    nothing and changes nothing. -/
theorem cleaning_reports_removals {site : Site} (hrun : site.clean.run c s = .ok removed s') :
    Reports c.directory [site.generated, site.output] removed s.tree s'.tree ∧
      site.clean.effect c s' = (s'.tree, .ok []) := by
  have hreports : Reports c.directory site.targets removed s.tree s'.tree := reports_removeAll hrun
  obtain ⟨events, hagain⟩ : ∃ events, site.clean.run c s' = .ok [] { s' with events } :=
    run_removeAll_of_missing hreports.gone
  exact ⟨hreports, Work.effect_eq_ok_iff.2 ⟨_, hagain, rfl⟩⟩

/-- The output of `/r` is reached through a link in the generated files. It is there when the cleaning
    begins, and is neither found nor deleted when its turn comes. -/
theorem cleaning_reports_removals_of_loopTree :
    let name := Bytes.ofString
    let site : Site := {
      root := name "/r", sources := name "/r/docs", generated := name "/r/docs/generated"
      output := name "/r/docs/generated/loop/out" }
    let c : Context := { directory := [], launch := fun _ _ => .error .zeroByte }
    let s : Session := { tree := loopTree }
    s.tree.pathExists c.directory site.output = true ∧
      ∃ s', site.clean.run c s = .ok [site.generated] s' ∧
        s'.tree.isDirectory [name "out", name "r"] = true ∧
        Reports c.directory [site.generated, site.output] [site.generated] s.tree s'.tree ∧
        site.clean.effect c s' = (s'.tree, .ok []) := by
  intro name site c s
  refine ⟨by decide +kernel, ?_⟩
  have hremoved : (site.clean.effect c s).2 = .ok [site.generated] := by decide +kernel
  have hout : (site.clean.effect c s).1.isDirectory [name "out", name "r"] = true := by
    decide +kernel
  obtain ⟨s', hrun, htree⟩ : ∃ s', site.clean.run c s = .ok [site.generated] s' ∧
      s'.tree = (site.clean.effect c s).1 := Work.effect_eq_ok_iff.1 (Prod.ext rfl hremoved)
  exact ⟨s', hrun, htree ▸ hout, cleaning_reports_removals hrun⟩

/-- A repository in `/r` in which a link of the sources leads to `/r/D`, through a directory in it. -/
def crossingTree : FileTree :=
  let name := Bytes.ofString
  let t := (FileTree.bare.put (name "r") [] .directory).put (name "docs") [name "r"] .directory
  let t := t.put (name "D") [name "r"] .directory
  let t := t.put (name "x") [name "D", name "r"] .directory
  t.put (name "link") [name "docs", name "r"] (.link (name "/r/D/x/.."))

/-- The same path, spelled with and without a `.` behind it, is listed twice: emptying the directory
    behind the link breaks the link, which then counts as gone and is found again when its turn comes. -/
theorem cleaning_lists_link_twice_of_crossingTree :
    let name := Bytes.ofString
    let layout : LayoutSection := { generatedDir := "link/.", outputDir := "docs/link" }
    let c : Context := { directory := [], launch := fun _ _ => .error .zeroByte }
    let s : Session := { tree := crossingTree }
    ∃ site removed s', Site.resolve (name "/r") layout = .ok site ∧
      site.clean.run c s = .ok removed s' ∧
      removed = [name "/r/docs/link/.", name "/r/docs/link"] ∧
      ¬ (removed.map Path.components).Nodup := by
  intro name layout c s
  let site : Site := {
    root := name "/r", sources := name "/r/docs", generated := name "/r/docs/link/."
    output := name "/r/docs/link" }
  have hsite : Site.resolve (name "/r") layout = .ok site := by rfl
  have hremoved : (site.clean.effect c s).2 = .ok [site.generated, site.output] := by
    decide +kernel
  have hsame : site.generated.components = site.output.components := by decide +kernel
  obtain ⟨s', hrun, -⟩ := Work.effect_eq_ok_iff.1 (Prod.ext rfl hremoved)
  refine ⟨site, _, s', hsite, hrun, rfl, ?_⟩
  simp [hsame]

end DocBuild
