import DocBuild.Cleaning
import DocBuild.Proofs.FileTree.Removal
import DocBuild.Proofs.Work

namespace DocBuild

open FileTree (Under Removal)

variable {c : Context} {s s' : Session} {p : Path}

theorem run_removeForced_of_ok {t : FileTree} {removed : Bool}
    (h : s.tree.removeForced c.obstacles c.directory p = (t, .ok removed)) :
    ∃ r, (removeForced p).run c s = .ok removed ⟨t, s.events ++ [.log r]⟩ := by
  unfold removeForced
  rw [Work.run_bind_of_ok Work.run_read, Work.run_bind_of_ok (by rw [Work.run_onTree, h])]
  cases removed <;> exact ⟨_, rfl⟩

theorem run_removeForced_of_error {t : FileTree} {e : FileError}
    (h : s.tree.removeForced c.obstacles c.directory p = (t, .error e)) :
    (removeForced p).run c s = .error (.file p e) { s with tree := t } := by
  unfold removeForced
  rw [Work.run_bind_of_ok Work.run_read, Work.run_bind_of_error (by rw [Work.run_onTree, h])]

/-- A command that has removed a path has done the removal on the tree. -/
theorem removeForced_of_run {removed : Bool} (h : (removeForced p).run c s = .ok removed s') :
    s.tree.removeForced c.obstacles c.directory p = (s'.tree, .ok removed) := by
  rcases hremoval : s.tree.removeForced c.obstacles c.directory p with ⟨t, e | b⟩
  · rw [run_removeForced_of_error hremoval] at h
    cases h
  · obtain ⟨r, hrun⟩ := run_removeForced_of_ok hremoval
    rw [hrun] at h
    cases h
    rfl

theorem leaves_removeForced :
    (removeForced p).leaves c s = (s.tree.removeForced c.obstacles c.directory p).1 := by
  rcases hremoval : s.tree.removeForced c.obstacles c.directory p with ⟨t, e | b⟩
  · exact Work.leaves_of_error (run_removeForced_of_error hremoval)
  · obtain ⟨r, hrun⟩ := run_removeForced_of_ok hremoval
    exact Work.leaves_of_ok hrun

theorem loses_removeForced :
    s.tree.Loses ((removeForced p).leaves c s) (Under s.tree c.directory p) := by
  rw [leaves_removeForced]
  exact (FileTree.removal_removeForced s.tree c.obstacles c.directory p).loses

theorem run_removeAll_of_error {ps : List Path} {f : Failure}
    (h : (removeForced p).run c s = .error f s') :
    (removeAll (p :: ps)).run c s = .error f s' :=
  Work.run_bind_of_error h

/-- After the first of several paths, the rest is deleted from what the first removal has left. -/
theorem run_removeAll_of_ok {ps : List Path} {removed : Bool}
    (h : (removeForced p).run c s = .ok removed s') :
    (removeAll (p :: ps)).run c s =
      match (removeAll ps).run c s' with
      | .ok more after => .ok (if removed then p :: more else more) after
      | .error f after => .error f after := by
  rw [removeAll, Work.run_bind_of_ok h]
  cases hmore : (removeAll ps).run c s' with
  | ok more after => rw [Work.run_bind_of_ok hmore, Work.run_pure]
  | error f after => rw [Work.run_bind_of_error hmore]

/-- Several paths are deleted when the first one is, and the rest from what that has left. -/
theorem run_removeAll_cons_eq_ok_iff {ps removed : List Path} :
    (removeAll (p :: ps)).run c s = .ok removed s' ↔
      ∃ b between more, (removeForced p).run c s = .ok b between ∧
        (removeAll ps).run c between = .ok more s' ∧ removed = if b then p :: more else more := by
  simp only [removeAll, Work.run_bind_eq_ok_iff, Work.run_pure, EStateM.Result.ok.injEq]
  constructor
  · rintro ⟨b, between, hfirst, more, after, hrest, rfl, rfl⟩
    exact ⟨b, between, more, hfirst, hrest, rfl⟩
  · rintro ⟨b, between, more, hfirst, hrest, rfl⟩
    exact ⟨b, between, hfirst, more, s', hrest, rfl, rfl⟩

/-- Where none of the paths names anything, deleting them changes nothing and reports nothing. -/
theorem run_removeAll_of_missing {ps : List Path}
    (h : ∀ p ∈ ps, s.tree.entry c.directory .keep p = .error (.system .noEntry)) :
    ∃ events, (removeAll ps).run c s = .ok [] { s with events } := by
  induction ps generalizing s with
  | nil => exact ⟨s.events, rfl⟩
  | cons p ps ih =>
    have hnothing : s.tree.removeForced c.obstacles c.directory p = (s.tree, .ok false) := by
      rw [FileTree.removeForced, h p List.mem_cons_self]
      rfl
    obtain ⟨r, hfirst⟩ := run_removeForced_of_ok hnothing
    obtain ⟨events, hrest⟩ := ih (s := ⟨s.tree, s.events ++ [.log r]⟩)
      fun q hq => h q (List.mem_cons_of_mem p hq)
    exact ⟨events, run_removeAll_cons_eq_ok_iff.2 ⟨false, _, [], hfirst, hrest, rfl⟩⟩

/-- The rest of several paths decides what is left after the first one. -/
theorem leaves_removeAll_of_ok {ps : List Path} {removed : Bool}
    (h : (removeForced p).run c s = .ok removed s') :
    (removeAll (p :: ps)).leaves c s = (removeAll ps).leaves c s' := by
  unfold Work.leaves
  rw [run_removeAll_of_ok h]
  cases (removeAll ps).run c s' <;> rfl

/-- Deleting paths in order takes nothing from outside the places they named at the start, whether
    or not all deletions succeed. -/
theorem loses_removeAll (ps : List Path) :
    s.tree.Loses ((removeAll ps).leaves c s) fun k => ∃ p ∈ ps, Under s.tree c.directory p k := by
  induction ps generalizing s with
  | nil => exact FileTree.Loses.refl _ _
  | cons p ps ih =>
    have hfirst : s.tree.Loses ((removeForced p).leaves c s)
        fun k => ∃ q ∈ p :: ps, Under s.tree c.directory q k :=
      loses_removeForced.mono fun k hk => ⟨p, List.mem_cons_self .., hk⟩
    cases hrun : (removeForced p).run c s with
    | error f between =>
      rw [Work.leaves_of_error hrun] at hfirst
      rwa [Work.leaves_of_error (run_removeAll_of_error hrun)]
    | ok removed between =>
      rw [Work.leaves_of_ok hrun] at hfirst
      have hrest : between.tree.Loses ((removeAll ps).leaves c between)
          fun k => ∃ q ∈ p :: ps, Under s.tree c.directory q k := by
        refine ih.mono ?_
        rintro k ⟨q, hq, hk⟩
        exact ⟨q, List.mem_cons_of_mem _ hq, FileTree.Under.of_partOf hfirst.partOf hk⟩
      rw [leaves_removeAll_of_ok hrun]
      exact hfirst.trans hrest

end DocBuild
