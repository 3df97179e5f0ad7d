import DocBuild.Proofs.FileTree.Absence
import DocBuild.Proofs.Path.Ending

namespace DocBuild.FileTree

variable {s t : FileTree} {last : Last} {links : Nat} {cwd here l d : Location} {p : Path}
  {e : Entry} {step : Bytes} {rest : List Bytes}

/-- A lookup that goes on has started in a directory, with a step that is not too long. -/
theorem Leads.start (h : Leads t last links here (step :: rest) l) :
    t.get? here = some .directory ∧
      (Path.staysHere step = true ∨ Path.goesUp step = true ∨ Path.IsName step) := by
  have hmoves {m : Move} (hmove : Moves t last here step rest m) :
      Path.staysHere step = true ∨ Path.goesUp step = true ∨ Path.IsName step := by
    cases hmove with
    | stay hstay => exact .inl hstay
    | up _ hup => exact .inr (.inl hup)
    | down hname | create hname | follow hname => exact .inr (.inr hname)
  cases h with
  | enter hdirectory hmove _ => exact ⟨hdirectory, hmoves hmove⟩
  | follow hdirectory hmove _ => exact ⟨hdirectory, hmoves hmove⟩

/-- A lookup comes to some place before a step, and goes on from there. -/
theorem Leads.exists_leads_before {front : List Bytes} (hlast : last ≠ .create)
    (h : Leads t last links here (front ++ step :: rest) l) :
    ∃ d left, Leads t .follow links here front d ∧ Leads t last left d (step :: rest) l := by
  have hwalk := walk_eq_ok_iff.2 h
  cases hfront : t.walk .follow links here front with
  | error err =>
    rw [walk_append_eq_error (List.cons_ne_nil step rest) hlast hfront] at hwalk
    cases hwalk
  | ok d =>
    have hbefore := walk_eq_ok_iff.1 hfront
    obtain ⟨left, hleft⟩ := hbefore.walk_append (List.cons_ne_nil step rest) hlast
    exact ⟨d, left, hbefore, walk_eq_ok_iff.1 (hleft ▸ hwalk)⟩

/-- The directory to which the steps before the last one lead is the one in which that is taken. -/
theorem parentOf_of_leads {front : List Bytes} (hcheck : checkPath p = .ok ())
    (hnamed : p.steps.filter (· ≠ []) = front ++ [step])
    (hleads : Leads t .follow linkLimit (p.origin cwd) front d)
    (hdirectory : t.get? d = some .directory)
    (hkind : Path.staysHere step = true ∨ Path.goesUp step = true ∨ Path.IsName step) :
    t.parentOf cwd p = .ok (d, .ofStep step (decide (p.getLast? = some Bytes.slash))) := by
  have hshort : Path.staysHere step = false → Path.goesUp step = false →
      ¬ nameLimit < step.length := by
    intro hgo hdown
    rcases hkind with hstay | hup | hname
    · rw [hgo] at hstay
      cases hstay
    · rw [hdown] at hup
      cases hup
    · exact Nat.not_lt.2 hname.short
  simp only [parentOf, hcheck, hnamed, List.getLast?_concat, List.dropLast_concat,
    walk_eq_ok_iff.2 hleads, hdirectory, bind, Except.bind, Sequence.mapError_ok, FinalStep.ofStep]
  cases hgo : Path.staysHere step with
  | true => rfl
  | false =>
    cases hdown : Path.goesUp step with
    | true => rfl
    | false =>
      simp only [hshort hgo hdown]
      rfl

/-- The lookup of a path that names something has come through the directory in which the last step
    is taken. -/
theorem parentOf_of_entry (hlast : last ≠ .create) (hstep : p.lastStep? = some step)
    (h : t.entry cwd last p = .ok (l, e)) :
    ∃ d left, t.parentOf cwd p = .ok (d, .ofStep step (decide (p.getLast? = some Bytes.slash))) ∧
      Leads t last left d (if p.getLast? = some Bytes.slash then [step, []] else [step]) l := by
  obtain ⟨front, hnamed⟩ := List.getLast?_eq_some_iff.1 hstep
  rw [← Path.filter_steps] at hnamed
  obtain ⟨hcheck, hleads⟩ := locate_eq_ok_iff.1 (entry_eq_ok_iff.1 h).1
  obtain ⟨tail, htail⟩ : ∃ tail,
      (if p.getLast? = some Bytes.slash then [step, []] else [step]) = step :: tail := by
    split <;> exact ⟨_, rfl⟩
  rw [steps_eq_of_named hnamed, htail] at hleads
  rw [htail]
  obtain ⟨d, left, hfront, hleads⟩ := hleads.exists_leads_before hlast
  obtain ⟨hdirectory, hkind⟩ := hleads.start
  exact ⟨d, left, parentOf_of_leads hcheck hnamed hfront hdirectory hkind, hleads⟩

/-- In a part of a tree the directory of a path is the same as in the whole tree, or missing. -/
theorem parentOf_same_or_missing (hpart : s.PartOf t) (cwd : Location) (p : Path) :
    s.parentOf cwd p = t.parentOf cwd p ∨ s.parentOf cwd p = .error (.system .noEntry) := by
  unfold parentOf
  cases hcheck : checkPath p with
  | error f => exact .inl rfl
  | ok =>
  simp only [bind, Except.bind]
  cases hstep : (p.steps.filter (· ≠ [])).getLast? with
  | none => exact .inl rfl
  | some step =>
  dsimp only
  rcases walk_of_partOf hpart (show Last.follow ≠ .create by decide) linkLimit (p.origin cwd)
    (p.steps.filter (· ≠ [])).dropLast with hsame | hmissing
  · rw [hsame]
    cases t.walk .follow linkLimit (p.origin cwd) (p.steps.filter (· ≠ [])).dropLast with
    | error err => exact .inl rfl
    | ok l =>
      simp only [Sequence.mapError_ok]
      cases hleft : s.get? l with
      | none => exact .inr rfl
      | some e =>
        rw [hpart l e hleft]
        exact .inl rfl
  · rw [hmissing]
    exact .inr rfl

/-- A path that ends in `.` names the directory in which that step is taken. -/
theorem entry_of_parentOf_here (hlast : last ≠ .create) (h : t.parentOf cwd p = .ok (d, .here)) :
    t.entry cwd last p = .ok (d, .directory) := by
  obtain ⟨hcheck, hdirectory, front, step, hsteps, hleads, hfinal, -⟩ := leads_of_parentOf h nofun
  have hstay : Path.staysHere step = true := by
    unfold FinalStep.ofStep at hfinal
    split at hfinal
    · next hstay => exact hstay
    · split at hfinal <;> cases hfinal
  rw [entry_eq_ok_iff, locate_eq_ok_iff, hsteps]
  refine ⟨⟨hcheck, ?_⟩, hdirectory⟩
  have hback : (if p.getLast? = some Bytes.slash then [step, []] else [step]) ≠ [] ∧
      ∀ x ∈ (if p.getLast? = some Bytes.slash then [step, []] else [step]),
        Path.staysHere x = true := by
    have hempty : Path.staysHere [] = true := rfl
    split <;> simp [hstay, hempty]
  obtain ⟨left, hleft⟩ := hleads.walk_append hback.1 hlast
  rw [← walk_eq_ok_iff, hleft, walk_eq_ok_iff]
  exact .of_stays hdirectory hback.2

theorem isEmptyDirectory_clear (t : FileTree) (l : Location) :
    (t.clear l).isEmptyDirectory l = true := by
  refine List.isEmpty_iff.2 (List.eq_nil_iff_forall_not_mem.2 fun n hn => ?_)
  obtain ⟨e, hentry⟩ := mem_names.1 hn
  rw [get?_clear, if_pos ⟨List.suffix_cons n l, List.cons_ne_self n l⟩] at hentry
  cases hentry

theorem removeDirectory_of_name {slash : Bool} (hparent : t.parentOf cwd p = .ok (d, .name step slash))
    (hdirectory : t.get? (step :: d) = some .directory)
    (hempty : t.isEmptyDirectory (step :: d) = true) :
    t.removeDirectory cwd p = .ok (t.prune (step :: d)) := by
  simp only [removeDirectory, hparent, hdirectory, hempty, bind, Except.bind]
  rfl

theorem removeDirectory_of_here (hparent : t.parentOf cwd p = .ok (d, .here)) :
    t.removeDirectory cwd p = .error (.system .invalid) := by
  simp only [removeDirectory, hparent, bind, Except.bind]
  rfl

theorem removeDirectory_of_missing (hparent : t.parentOf cwd p = .error (.system .noEntry)) :
    t.removeDirectory cwd p = .error (.system .noEntry) := by
  simp only [removeDirectory, hparent, bind, Except.bind]

section Found

variable {obstacles : Obstacles} (hentry : t.entry cwd .keep p = .ok (l, .directory))
  (hfree : obstacles t l = none)
include hentry hfree

/-- A directory that is found and may be deleted is emptied in any case. -/
theorem removeForced_of_directory :
    t.removeForced obstacles cwd p =
      match (t.clear l).removeDirectory cwd p with
      | .ok r => (r, .ok true)
      | .error f => if f.isMissing then (t.clear l, .ok true) else (t.clear l, .error f) := by
  cases hremove : (t.clear l).removeDirectory cwd p with
  | ok r => simp only [removeForced, hentry, hfree, hremove]
  | error f => simp only [removeForced, hentry, hfree, hremove]

/-- Nothing is left of what was in it, whether or not the directory itself can be removed. -/
theorem get?_removeForced_of_directory {k : Location} (hbelow : l <:+ k) (hne : k ≠ l) :
    (t.removeForced obstacles cwd p).1.get? k = none := by
  have hcleared : (t.clear l).get? k = none := by rw [get?_clear, if_pos ⟨hbelow, hne⟩]
  rw [removeForced_of_directory hentry hfree]
  cases hremove : (t.clear l).removeDirectory cwd p with
  | ok r =>
    obtain ⟨m, -, -, rfl⟩ := removeDirectory_eq_ok hremove
    exact (loses_prune (t.clear l) m).partOf.get?_eq_none hcleared
  | error f =>
    dsimp only
    split
    · exact hcleared
    · exact hcleared

/-- Without links, a directory whose path ends in a name is removed. -/
theorem removeForced_of_name (hlinks : t.LinkFree) (hstep : p.lastStep? = some step)
    (hgo : Path.staysHere step = false) (hdown : Path.goesUp step = false) :
    ∃ r, t.removeForced obstacles cwd p = (r, .ok true) := by
  obtain ⟨d, left, hparent, hleads⟩ := parentOf_of_entry (by decide) hstep hentry
  rw [FinalStep.ofStep_of_name hgo hdown] at hparent
  obtain rfl : l = step :: d := by
    have hplace := hleads.eq_foldl fun v _ => hlinks v
    have hadvance : Path.advance d step = step :: d := by simp [Path.advance, hgo, hdown]
    rw [hplace]
    split
    · exact hadvance
    · exact hadvance
  rw [removeForced_of_directory hentry hfree]
  rcases parentOf_same_or_missing (loses_clear t (step :: d)).partOf cwd p with hsame | hmissing
  · have hleft : (t.clear (step :: d)).get? (step :: d) = some .directory := by
      rw [get?_clear, if_neg fun h => h.2 rfl]
      exact (entry_eq_ok_iff.1 hentry).2
    rw [removeDirectory_of_name (hsame.trans hparent) hleft (isEmptyDirectory_clear t (step :: d))]
    exact ⟨_, rfl⟩
  · rw [removeDirectory_of_missing hmissing]
    exact ⟨_, rfl⟩

/-- A directory whose path ends in `.` is emptied and stays behind, unless the path leads through
    something in it; the removal is refused then, except that it leads nowhere. -/
theorem removeForced_of_here (hstep : p.endsHere = true) :
    t.removeForced obstacles cwd p =
      (t.clear l, if t.PassesNothingBelow cwd p l then .error (.system .invalid) else .ok true) := by
  have hlast : Last.keep ≠ .create := by decide
  have hparent {t : FileTree} {e : Entry} (hentry : t.entry cwd .keep p = .ok (l, e)) :
      ∃ d, t.parentOf cwd p = .ok (d, .here) := by
    obtain ⟨d, left, hparent, -⟩ := parentOf_of_entry hlast (Path.endsHere_iff.1 hstep) hentry
    exact ⟨d, hparent⟩
  obtain ⟨d, hbefore⟩ := hparent hentry
  rw [removeForced_of_directory hentry hfree]
  by_cases hdirect : t.PassesNothingBelow cwd p l
  · obtain ⟨d, hafter⟩ := hparent ((entry_clear_iff hentry).2 hdirect)
    rw [removeDirectory_of_here hafter, if_pos hdirect]
    rfl
  · rcases parentOf_same_or_missing (loses_clear t l).partOf cwd p with hsame | hmissing
    · have hfound := entry_of_parentOf_here hlast (hsame.trans hbefore)
      have hwhole := entry_of_partOf (loses_clear t l).partOf hlast hfound
      rw [hentry] at hwhole
      cases hwhole
      exact absurd ((entry_clear_iff hentry).1 hfound) hdirect
    · rw [removeDirectory_of_missing hmissing, if_neg hdirect]
      rfl

end Found

end DocBuild.FileTree
