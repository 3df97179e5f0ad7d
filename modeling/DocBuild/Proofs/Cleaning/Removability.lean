import DocBuild.Proofs.Cleaning.Completeness
import DocBuild.Proofs.FileTree.Emptying

namespace DocBuild

open FileTree (Removal)

variable {c : Context} {s s' : Session} {root p : Path} {layout : LayoutSection} {site : Site}

/-- The path names a directory, or nothing at all. -/
def FileTree.HasRoomFor (t : FileTree) (cwd : Location) (p : Path) : Prop :=
  (∃ l, t.entry cwd .keep p = .ok (l, .directory)) ∨
    t.entry cwd .keep p = .error (.system .noEntry)

/-- A path that names a directory or nothing does so in every part of the tree. -/
theorem FileTree.HasRoomFor.of_partOf {t r : FileTree} {cwd : Location} (hpart : r.PartOf t)
    (h : t.HasRoomFor cwd p) : r.HasRoomFor cwd p := by
  rcases FileTree.entry_same_or_missing hpart (show FileTree.Last.keep ≠ .create by decide) cwd p with
    hsame | hmissing
  · rcases h with ⟨l, hentry⟩ | hmissing
    · exact .inl ⟨l, hsame.trans hentry⟩
    · exact .inr (hsame.trans hmissing)
  · exact .inr hmissing

/-- What is deleted before a build ends in a step that does not climb. -/
theorem Site.exists_lastStep_of_mem_targets (hsite : resolve root layout = .ok site)
    (hp : p ∈ site.targets) :
    ∃ step, p.lastStep? = some step ∧ step ≠ [] ∧ Path.goesUp step = false := by
  obtain ⟨q, hq, rfl⟩ := exists_inner_of_mem_targets hsite hp
  rw [hq.lastStep?_join]
  exact hq.exists_lastStep

/-- The working directories end as they are configured. -/
theorem Site.endsHere_eq (hsite : resolve root layout = .ok site) :
    site.generated.endsHere = Path.endsHere (Bytes.ofString layout.generatedDir) ∧
      site.output.endsHere = Path.endsHere (Bytes.ofString layout.outputDir) := by
  obtain ⟨⟨-, hgenerated, houtput⟩, -, rfl⟩ := resolve_eq_ok_iff.1 hsite
  exact ⟨hgenerated.endsHere_join _, houtput.endsHere_join _⟩

/-- A directory to be deleted that does not end in `.` is deleted when it is there. -/
theorem removeForced_of_not_endsHere {l : Location} (hsite : Site.resolve root layout = .ok site)
    (hp : p ∈ site.targets) (hends : p.endsHere = false) (hlinks : s.tree.LinkFree)
    (hfree : c.obstacles s.tree l = none)
    (hentry : s.tree.entry c.directory .keep p = .ok (l, .directory)) :
    ∃ t, s.tree.removeForced c.obstacles c.directory p = (t, .ok true) := by
  obtain ⟨step, hstep, hne, hdown⟩ := Site.exists_lastStep_of_mem_targets hsite hp
  refine FileTree.removeForced_of_name hentry hfree hlinks hstep ?_ hdown
  have hdot : step ≠ [Bytes.dot] := by
    rintro rfl
    rw [Path.endsHere_iff.2 hstep] at hends
    cases hends
  simp [Path.staysHere, hne, hdot]

/-- Directories that do not end in `.` are all deleted, one after the other. -/
theorem run_removeAll_of_not_endsHere {ps : List Path} (hsite : Site.resolve root layout = .ok site)
    (hps : ∀ p ∈ ps, p ∈ site.targets) (hpermitted : c.obstacles = FileTree.unobstructed)
    (hlinks : s.tree.LinkFree) (hends : ∀ p ∈ ps, p.endsHere = false)
    (hroom : ∀ p ∈ ps, s.tree.HasRoomFor c.directory p) :
    ∃ removed s', (removeAll ps).run c s = .ok removed s' := by
  induction ps generalizing s with
  | nil => exact ⟨[], s, rfl⟩
  | cons p ps ih =>
    have hp := List.mem_cons_self (a := p) (l := ps)
    have hrest {q : Path} (hq : q ∈ ps) := List.mem_cons_of_mem p hq
    obtain ⟨t, removed, hremove⟩ : ∃ t removed,
        s.tree.removeForced c.obstacles c.directory p = (t, .ok removed) := by
      rcases hroom p hp with ⟨l, hentry⟩ | hmissing
      · have hfree : c.obstacles s.tree l = none := by rw [hpermitted]; rfl
        obtain ⟨t, hremove⟩ := removeForced_of_not_endsHere hsite (hps p hp) (hends p hp) hlinks hfree
          hentry
        exact ⟨t, true, hremove⟩
      · refine ⟨s.tree, false, ?_⟩
        simp only [FileTree.removeForced, hmissing]
        rfl
    obtain ⟨r, hfirst⟩ := run_removeForced_of_ok hremove
    have hlost := (FileTree.removal_removeForced s.tree c.obstacles c.directory p).loses
    rw [hremove] at hlost
    obtain ⟨more, s', hmore⟩ := ih (s := ⟨t, s.events ++ [.log r]⟩) (fun q hq => hps q (hrest hq))
      (hlinks.of_partOf hlost.partOf) (fun q hq => hends q (hrest hq))
      fun q hq => (hroom q (hrest hq)).of_partOf hlost.partOf
    exact ⟨_, s', run_removeAll_cons_eq_ok_iff.2 ⟨removed, _, more, hfirst, hmore, rfl⟩⟩

/-- In a tree without links, where everything may be deleted, a working directory of an accepted
    layout that is there is deleted exactly if its configured value does not end in `.`, or the root
    is spelt through what is in the directory. Otherwise the directory is emptied and the deletion
    fails. Without such values no cleaning fails because of the directories that it finds. -/
theorem target_removed_iff (hsite : Site.resolve site.root layout = .ok site)
    (hpermitted : c.obstacles = FileTree.unobstructed) :
    (site.generated.endsHere = Path.endsHere (Bytes.ofString layout.generatedDir) ∧
      site.output.endsHere = Path.endsHere (Bytes.ofString layout.outputDir)) ∧
    (∀ (s : Session) (p : Path) (l : Location), s.tree.LinkFree → p ∈ site.targets →
      s.tree.entry c.directory .keep p = .ok (l, .directory) →
      ((∃ s', (removeForced p).run c s = .ok true s' ∧
          s'.tree.entry c.directory .keep p = .error (.system .noEntry)) ↔
        ¬ (p.endsHere = true ∧ s.tree.PassesNothingBelow c.directory p l)) ∧
      (p.endsHere = true → s.tree.PassesNothingBelow c.directory p l →
        (removeForced p).run c s =
          .error (.file p (.system .invalid)) { s with tree := s.tree.clear l })) ∧
    ∀ s : Session, s.tree.LinkFree →
      (∀ p ∈ site.targets, p.endsHere = false ∧ s.tree.HasRoomFor c.directory p) →
      ∃ removed s', site.clean.run c s = .ok removed s' := by
  refine ⟨Site.endsHere_eq hsite, ?_, ?_⟩
  · intro s p l hlinks hp hentry
    have hfree : c.obstacles s.tree l = none := by rw [hpermitted]; rfl
    have hrefused (hends : p.endsHere = true) (hdirect : s.tree.PassesNothingBelow c.directory p l) :
        (removeForced p).run c s =
          .error (.file p (.system .invalid)) { s with tree := s.tree.clear l } := by
      refine run_removeForced_of_error ?_
      rw [FileTree.removeForced_of_here hentry hfree hends, if_pos hdirect]
    refine ⟨⟨?_, ?_⟩, hrefused⟩
    · rintro ⟨s', hrun, -⟩ ⟨hends, hdirect⟩
      rw [hrefused hends hdirect] at hrun
      cases hrun
    · intro hkept
      obtain ⟨t, hremove⟩ : ∃ t, s.tree.removeForced c.obstacles c.directory p = (t, .ok true) := by
        cases hends : p.endsHere with
        | false => exact removeForced_of_not_endsHere hsite hp hends hlinks hfree hentry
        | true =>
          rw [FileTree.removeForced_of_here hentry hfree hends,
            if_neg fun hdirect => hkept ⟨hends, hdirect⟩]
          exact ⟨_, rfl⟩
      have hremoval := FileTree.removal_removeForced s.tree c.obstacles c.directory p
      rw [hremove] at hremoval
      obtain ⟨r, hrun⟩ := run_removeForced_of_ok hremove
      exact ⟨_, hrun, hremoval.missing⟩
  · intro s hlinks htargets
    exact run_removeAll_of_not_endsHere hsite (fun p hp => hp) hpermitted hlinks
      (fun p hp => (htargets p hp).1) fun p hp => (htargets p hp).2

/-- An output that is configured as `docs/_build/.` is emptied by the next build, which then fails. -/
theorem target_removed_iff_of_builtTree :
    let name := Bytes.ofString
    let layout : LayoutSection := { outputDir := "docs/_build/." }
    let site : Site := {
      root := name "/r"
      sources := name "/r/docs"
      generated := name "/r/docs/generated"
      output := name "/r/docs/_build/." }
    let c : Context := { directory := [], launch := fun _ _ => .error .zeroByte }
    let s : Session := { tree := builtTree }
    let l : Location := [name "_build", name "docs", name "r"]
    Site.resolve site.root layout = .ok site ∧ c.obstacles = FileTree.unobstructed ∧
      s.tree.LinkFree ∧ s.tree.entry c.directory .keep site.output = .ok (l, .directory) ∧
      (removeForced site.output).run c s =
        .error (.file site.output (.system .invalid)) { s with tree := builtTree.clear l } ∧
      ¬ ∃ s', (removeForced site.output).run c s = .ok true s' ∧
        s'.tree.entry c.directory .keep site.output = .error (.system .noEntry) := by
  intro name layout site c s l
  have hsite : Site.resolve site.root layout = .ok site := by rfl
  have hentry : s.tree.entry c.directory .keep site.output = .ok (l, .directory) := by rfl
  have hends : site.output.endsHere = true := by decide +kernel
  have hdirect : s.tree.PassesNothingBelow c.directory site.output l := by decide +kernel
  have htarget : site.output ∈ site.targets := List.mem_cons_of_mem _ List.mem_cons_self
  obtain ⟨-, hremoval, -⟩ := target_removed_iff (c := c) hsite rfl
  obtain ⟨hiff, hrefused⟩ := hremoval s site.output l linkFree_builtTree htarget hentry
  exact ⟨hsite, rfl, linkFree_builtTree, hentry, hrefused hends hdirect,
    fun hremoved => hiff.1 hremoved ⟨hends, hdirect⟩⟩

end DocBuild
