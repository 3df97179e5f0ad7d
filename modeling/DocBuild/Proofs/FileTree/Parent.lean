import DocBuild.Proofs.FileTree.Lookup

namespace DocBuild.FileTree

variable {s t : FileTree} {last : Last} {links : Nat} {cwd here l d : Location} {step : Bytes}
  {rest steps front back : List Bytes} {p : Path} {e : Entry}

/-- A step on the way is taken as if a directory were looked up there. -/
theorem move_append (hback : back ≠ []) (hlast : last ≠ .create) :
    t.move .follow here step rest = t.move last here step (rest ++ back) := by
  simp [move, hback, hlast]

theorem Moves.append {m : Move} (h : Moves t .follow here step rest m)
    (hdirectory : t.get? here = some .directory) (hback : back ≠ []) (hlast : last ≠ .create) :
    Moves t last here step (rest ++ back) m := by
  have hmove := move_eq_ok_iff.2 ⟨hdirectory, h⟩
  rw [move_append hback hlast] at hmove
  exact (move_eq_ok_iff.1 hmove).2

/-- Behind the directories a lookup goes on with as many links as are left. -/
theorem Leads.walk_append (h : Leads t .follow links here front d) (hback : back ≠ [])
    (hlast : last ≠ .create) :
    ∃ left, t.walk last links here (front ++ back) = t.walk last left d back := by
  induction h with
  | done links here => exact ⟨links, rfl⟩
  | enter hdirectory hmove _ ih =>
    obtain ⟨left, hleft⟩ := ih
    refine ⟨left, Eq.trans ?_ hleft⟩
    exact walk_of_enter (move_eq_ok_iff.2 ⟨hdirectory, hmove.append hdirectory hback hlast⟩)
  | follow hdirectory hmove _ ih =>
    obtain ⟨left, hleft⟩ := ih
    rw [List.append_assoc] at hleft
    refine ⟨left, Eq.trans ?_ hleft⟩
    exact walk_of_follow (move_eq_ok_iff.2 ⟨hdirectory, hmove.append hdirectory hback hlast⟩)

/-- Where the directories cannot be looked up, nothing behind them can. -/
theorem walk_append_eq_error {err : SystemError} (hback : back ≠ []) (hlast : last ≠ .create)
    (h : t.walk .follow links here front = .error err) :
    t.walk last links here (front ++ back) = .error err := by
  induction links, front using lookup_induction generalizing here with
  | nil links =>
    rw [walk_nil] at h
    cases h
  | cons links step rest ihRest ihLinks =>
    have hmoves : t.move .follow here step rest = t.move last here step (rest ++ back) :=
      move_append hback hlast
    rw [List.cons_append]
    cases hmove : t.move .follow here step rest with
    | error f =>
      rw [walk_of_error hmove] at h
      rw [walk_of_error (hmoves.symm.trans hmove), h]
    | ok m =>
      have hmove' := hmoves.symm.trans hmove
      cases m with
      | enter m =>
        rw [walk_of_enter hmove] at h
        rw [walk_of_enter hmove']
        exact ihRest h
      | follow target =>
        cases links with
        | zero =>
          rw [walk_of_no_links hmove] at h
          rw [walk_of_no_links hmove', h]
        | succ links =>
          rw [walk_of_follow hmove] at h
          rw [walk_of_follow hmove', ← List.append_assoc]
          exact ihLinks links _ (Nat.lt_succ_self links) h

/-- The steps of a path with a last step: what leads to it, that step, and perhaps a slash. -/
theorem steps_eq_of_named (h : p.steps.filter (· ≠ []) = front ++ [step]) :
    p.steps = front ++ (if p.getLast? = some Bytes.slash then [step, []] else [step]) := by
  have hnamed : p.segments.filter (· ≠ []) = front ++ [step] := by
    rw [← h, Path.steps]
    split <;> simp
  rw [Path.steps, hnamed]
  split <;> simp

theorem entry_eq_error_of_walk {err : SystemError} (hcheck : checkPath p = .ok ())
    (h : t.walk last linkLimit (p.origin cwd) p.steps = .error err) :
    t.entry cwd last p = .error (.system err) := by
  simp [entry, locate, hcheck, h, bind, Except.bind]

/-- The last step of a path is a name, taken in the directory `d` that the steps before lead to. -/
structure HeldIn (t : FileTree) (cwd : Location) (p : Path) (d : Location) (step : Bytes) : Prop where
  check : checkPath p = .ok ()
  directory : t.get? d = some .directory
  name : Path.IsName step
  leads : ∃ front, p.steps = front ++ (if p.getLast? = some Bytes.slash then [step, []] else [step]) ∧
    Leads t .follow linkLimit (p.origin cwd) front d

/-- What the last step of a path asks for. -/
def FinalStep.ofStep (step : Bytes) (slash : Bool) : FinalStep :=
  if Path.staysHere step then .here
  else if Path.goesUp step then .up
  else .name step slash

theorem FinalStep.ofStep_of_name {slash : Bool} (hgo : Path.staysHere step = false)
    (hup : Path.goesUp step = false) : ofStep step slash = .name step slash := by
  rw [ofStep, hgo, hup]
  rfl

/-- The last step of a path is taken in the directory to which the steps before it lead. -/
theorem leads_of_parentOf {final : FinalStep} (h : t.parentOf cwd p = .ok (d, final))
    (hroot : final ≠ .root) :
    checkPath p = .ok () ∧ t.get? d = some .directory ∧ ∃ front step,
      p.steps = front ++ (if p.getLast? = some Bytes.slash then [step, []] else [step]) ∧
      Leads t .follow linkLimit (p.origin cwd) front d ∧
      final = .ofStep step (decide (p.getLast? = some Bytes.slash)) ∧
      (Path.staysHere step = false → Path.goesUp step = false → step.length ≤ nameLimit) := by
  unfold parentOf at h
  rw [Sequence.bind_eq_ok_iff] at h
  obtain ⟨⟨⟩, hcheck, h⟩ := h
  dsimp only at h
  split at h
  · exact absurd (Prod.mk.inj (Except.ok.inj h)).2.symm hroot
  next step hstep =>
  obtain ⟨front, hnamed⟩ := List.getLast?_eq_some_iff.1 hstep
  rw [hnamed, List.dropLast_concat, Sequence.bind_eq_ok_iff] at h
  obtain ⟨m, hwalk, h⟩ := h
  rw [Sequence.mapError_eq_ok_iff, walk_eq_ok_iff] at hwalk
  split at h
  · next hdirectory =>
    have hstep : m = d ∧ final = .ofStep step (decide (p.getLast? = some Bytes.slash)) ∧
        (Path.staysHere step = false → Path.goesUp step = false → step.length ≤ nameLimit) := by
      unfold FinalStep.ofStep
      split at h
      · next hstay =>
        cases h
        exact ⟨rfl, (if_pos hstay).symm, fun hgo => absurd hgo (by simp [hstay])⟩
      next hstay =>
      rw [if_neg hstay]
      split at h
      · next hup =>
        cases h
        exact ⟨rfl, (if_pos hup).symm, fun _ hdown => absurd hdown (by simp [hup])⟩
      next hup =>
      split at h
      · cases h
      · next hlong =>
        cases h
        exact ⟨rfl, (if_neg hup).symm, fun _ _ => Nat.le_of_not_lt hlong⟩
    obtain ⟨rfl, hfinal, hshort⟩ := hstep
    exact ⟨hcheck, hdirectory, front, step, steps_eq_of_named hnamed, hwalk, hfinal, hshort⟩
  · cases h
  · cases h

theorem heldIn_of_parentOf {slash : Bool} (h : t.parentOf cwd p = .ok (d, .name step slash)) :
    t.HeldIn cwd p d step ∧ slash = decide (p.getLast? = some Bytes.slash) := by
  obtain ⟨hcheck, hdirectory, front, x, hsteps, hleads, hfinal, hshort⟩ := leads_of_parentOf h nofun
  unfold FinalStep.ofStep at hfinal
  split at hfinal
  · cases hfinal
  next hstay =>
  split at hfinal
  · cases hfinal
  next hup =>
  obtain ⟨rfl, rfl⟩ := FinalStep.name.inj hfinal
  have hgo := Bool.eq_false_iff.2 hstay
  have hdown := Bool.eq_false_iff.2 hup
  exact ⟨⟨hcheck, hdirectory, ⟨hgo, hdown, hshort hgo hdown⟩, front, hsteps, hleads⟩, rfl⟩

theorem HeldIn.of_partOf (hpart : s.PartOf t) (h : s.HeldIn cwd p d step) : t.HeldIn cwd p d step := by
  obtain ⟨hcheck, hdirectory, hname, front, hsteps, hleads⟩ := h
  exact ⟨hcheck, hpart _ _ hdirectory, hname, front, hsteps, hleads.of_partOf hpart (by decide)⟩

/-- What the directory holds under the last name is what the path names, unless it is a link to be
    followed or a final slash asks for a directory. -/
theorem HeldIn.entry_eq (h : t.HeldIn cwd p d step) (hlast : last ≠ .create)
    (hentry : t.get? (step :: d) = some e) (hlink : ∀ target, e = .link target → last = .keep)
    (hslash : p.getLast? = some Bytes.slash → e = .directory) :
    t.entry cwd last p = .ok (step :: d, e) := by
  obtain ⟨hcheck, hdirectory, hname, front, hsteps, hleads⟩ := h
  rw [entry_eq_ok_iff, locate_eq_ok_iff, hsteps]
  refine ⟨⟨hcheck, ?_⟩, hentry⟩
  have hfound (rest : List Bytes) (hstop : ∀ target, e = .link target → rest = []) :
      Moves t last d step rest (.enter (step :: d)) :=
    .down hname (fun h => hlast h.1) hentry fun target htarget =>
      ⟨hlink target htarget, hstop target htarget⟩
  split
  · next hends =>
    obtain rfl := hslash hends
    obtain ⟨left, hleft⟩ := hleads.walk_append (List.cons_ne_nil step [[]]) hlast
    rw [← walk_eq_ok_iff, hleft, walk_eq_ok_iff]
    exact .enter hdirectory (hfound [[]] (by simp)) (.enter hentry (.stay rfl) (.done _ _))
  · obtain ⟨left, hleft⟩ := hleads.walk_append (List.cons_ne_nil step []) hlast
    rw [← walk_eq_ok_iff, hleft, walk_eq_ok_iff]
    exact .enter hdirectory (hfound [] (by simp)) (.done _ _)

theorem walk_of_missing (h : t.get? here = none) :
    t.walk last links here (step :: rest) = .error .noEntry :=
  walk_of_error (by simp only [move, h])

/-- Where the directory of a path is missing, the path names nothing. -/
theorem entry_of_parentOf_missing (h : t.parentOf cwd p = .error (.system .noEntry)) :
    t.entry cwd .keep p = .error (.system .noEntry) := by
  have hlast : Last.keep ≠ .create := by decide
  unfold parentOf at h
  rw [Sequence.bind_eq_error_iff] at h
  rcases h with hcheck | ⟨⟨⟩, hcheck, h⟩
  · simp [entry, locate, hcheck, bind, Except.bind]
  dsimp only at h
  split at h
  · cases h
  next x hx =>
  obtain ⟨front, hnamed⟩ := List.getLast?_eq_some_iff.1 hx
  have hback : (if p.getLast? = some Bytes.slash then [x, []] else [x]) ≠ [] := by
    split <;> simp
  refine entry_eq_error_of_walk hcheck ?_
  rw [steps_eq_of_named hnamed]
  rw [hnamed, List.dropLast_concat, Sequence.bind_eq_error_iff] at h
  rcases h with hwalk | ⟨m, hwalk, h⟩
  · obtain ⟨f, hfront, hf⟩ := Sequence.mapError_eq_error_iff.1 hwalk
    obtain rfl := FileError.system.inj hf
    exact walk_append_eq_error hback hlast hfront
  · rw [Sequence.mapError_eq_ok_iff, walk_eq_ok_iff] at hwalk
    obtain ⟨left, hleft⟩ := hwalk.walk_append hback hlast
    rw [hleft]
    split at h
    · split at h
      · cases h
      split at h
      · cases h
      split at h <;> cases h
    · cases h
    · next hmissing => split <;> exact walk_of_missing hmissing

/-- A directory without the name leads no further. -/
theorem walk_of_free (hdirectory : t.get? d = some .directory) (hstay : Path.staysHere step = false)
    (hup : Path.goesUp step = false) (hfree : t.get? (step :: d) = none) (hlast : last ≠ .create) :
    ∃ err, t.walk last links d (step :: rest) = .error err := by
  have hmove : ∃ err, t.move last d step rest = .error err := by
    by_cases hlong : nameLimit < step.length <;>
      simp [move, hdirectory, hstay, hup, hfree, hlast, hlong]
  obtain ⟨err, hmove⟩ := hmove
  exact ⟨err, walk_of_error hmove⟩

/-- Where the directory does not hold the last name, the path names nothing. -/
theorem HeldIn.entry_missing (h : t.HeldIn cwd p d step) (hlast : last ≠ .create)
    (hnone : t.get? (step :: d) = none) : t.entry cwd last p = .error (.system .noEntry) := by
  obtain ⟨hcheck, hdirectory, hname, front, hsteps, hleads⟩ := h
  have hmove (rest : List Bytes) : t.move last d step rest = .error .noEntry := by
    simp [move, hdirectory, hname.not_stays, hname.not_up, Nat.not_lt.2 hname.short, hnone, hlast]
  refine entry_eq_error_of_walk hcheck ?_
  rw [hsteps]
  split
  · obtain ⟨left, hleft⟩ := hleads.walk_append (List.cons_ne_nil step [[]]) hlast
    rw [hleft, walk_of_error (hmove _)]
  · obtain ⟨left, hleft⟩ := hleads.walk_append (List.cons_ne_nil step []) hlast
    rw [hleft, walk_of_error (hmove _)]

end DocBuild.FileTree
