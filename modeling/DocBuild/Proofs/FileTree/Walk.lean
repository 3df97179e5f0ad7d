import DocBuild.Proofs.FileTree.Loss

namespace DocBuild

/-- A step that can name an entry of a directory. -/
structure Path.IsName (step : Bytes) : Prop where
  not_stays : Path.staysHere step = false
  not_up : Path.goesUp step = false
  short : step.length ≤ FileTree.nameLimit

namespace FileTree

variable {s t : FileTree} {last : Last} {links : Nat} {here l : Location} {step : Bytes}
  {rest steps : List Bytes}

/-- The moves that one step can make from a directory. -/
inductive Moves (t : FileTree) (last : Last) (here : Location) (step : Bytes) (rest : List Bytes) :
    Move → Prop where
  | stay (hstay : Path.staysHere step = true) : Moves t last here step rest (.enter here)
  | up (hgo : Path.staysHere step = false) (hup : Path.goesUp step = true) :
      Moves t last here step rest (.enter here.tail)
  | down (hname : Path.IsName step) (hrest : ¬(last = .create ∧ rest = [[]])) {e : Entry}
      (hentry : t.get? (step :: here) = some e)
      (hstop : ∀ target, e = .link target → last = .keep ∧ rest = []) :
      Moves t last here step rest (.enter (step :: here))
  | create (hname : Path.IsName step) (hfree : t.get? (step :: here) = none)
      (hlast : last = .create) (hrest : rest = []) :
      Moves t last here step rest (.enter (step :: here))
  | follow (hname : Path.IsName step) (hrest : ¬(last = .create ∧ rest = [[]])) {target : Path}
      (hlink : t.get? (step :: here) = some (.link target)) (hgo : ¬(last = .keep ∧ rest = [])) :
      Moves t last here step rest (.follow target)

theorem move_eq_ok_iff {m : Move} :
    t.move last here step rest = .ok m ↔
      t.get? here = some .directory ∧ Moves t last here step rest m := by
  constructor
  · intro h
    unfold move at h
    split at h
    · cases h
    · cases h
    · cases h
    next hdirectory =>
    refine ⟨hdirectory, ?_⟩
    split at h
    · next hstay =>
      cases h
      exact .stay hstay
    next hstay =>
    split at h
    · next hup =>
      cases h
      exact .up (by simpa using hstay) hup
    next hup =>
    split at h
    · cases h
    next hrest =>
    split at h
    · cases h
    next hlong =>
    have hname : Path.IsName step := ⟨by simpa using hstay, by simpa using hup, by omega⟩
    split at h
    · next hfree =>
      split at h
      · next hcreate =>
        cases h
        exact .create hname hfree hcreate.1 hcreate.2
      · cases h
    · next hlink =>
      split at h
      · next hkeep =>
        cases h
        exact .down hname hrest hlink fun _ _ => hkeep
      · next hgo =>
        cases h
        exact .follow hname hrest hlink hgo
    · next e hno hentry =>
      cases h
      exact .down hname hrest hentry fun target htarget => absurd htarget (hno target)
  · rintro ⟨hdirectory, h⟩
    simp only [move, hdirectory]
    cases h with
    | stay hstay => rw [if_pos hstay]
    | up hgo hup => rw [if_neg (by simp [hgo]), if_pos hup]
    | down hname hrest hentry hstop =>
      rw [hname.not_stays, hname.not_up, if_neg (by simp), if_neg (by simp), if_neg hrest,
        if_neg (Nat.not_lt.2 hname.short), hentry]
      split
      · next hnone => cases hnone
      · next target htarget =>
        rw [if_pos (hstop target (Option.some.inj htarget))]
      · rfl
    | create hname hfree hlast hrest =>
      rw [hname.not_stays, hname.not_up, if_neg (by simp), if_neg (by simp), if_neg (by simp [hrest]),
        if_neg (Nat.not_lt.2 hname.short), hfree, if_pos ⟨hlast, hrest⟩]
    | follow hname hrest hlink hgo =>
      rw [hname.not_stays, hname.not_up, if_neg (by simp), if_neg (by simp), if_neg hrest,
        if_neg (Nat.not_lt.2 hname.short), hlink]
      simp only [if_neg hgo]

/-- Moves that create nothing look only at entries that are there, so they are the same in a larger
    tree. -/
theorem Moves.of_partOf {m : Move} (hpart : s.PartOf t) (hlast : last ≠ .create)
    (h : Moves s last here step rest m) : Moves t last here step rest m := by
  cases h with
  | stay hstay => exact .stay hstay
  | up hgo hup => exact .up hgo hup
  | down hname hrest hentry hstop => exact .down hname hrest (hpart _ _ hentry) hstop
  | create hname hfree hcreate hrest => exact absurd hcreate hlast
  | follow hname hrest hlink hgo => exact .follow hname hrest (hpart _ _ hlink) hgo

/-- A lookup that leads somewhere, with the moves it makes. -/
inductive Leads (t : FileTree) (last : Last) : Nat → Location → List Bytes → Location → Prop where
  | done (links : Nat) (here : Location) : Leads t last links here [] here
  | enter {links : Nat} {here m l : Location} {step : Bytes} {rest : List Bytes}
      (hdirectory : t.get? here = some .directory) (hmove : Moves t last here step rest (.enter m))
      (hrest : Leads t last links m rest l) : Leads t last links here (step :: rest) l
  | follow {links : Nat} {here l : Location} {step : Bytes} {rest : List Bytes} {target : Path}
      (hdirectory : t.get? here = some .directory)
      (hmove : Moves t last here step rest (.follow target))
      (hrest : Leads t last links (target.origin here) (target.steps ++ rest) l) :
      Leads t last (links + 1) here (step :: rest) l

theorem walk_nil : t.walk last links here [] = .ok here := by
  cases links <;> rfl

theorem walk_of_enter {m : Location} (h : t.move last here step rest = .ok (.enter m)) :
    t.walk last links here (step :: rest) = t.walk last links m rest := by
  cases links <;> simp only [walk, descend, h]

theorem walk_of_follow {target : Path} (h : t.move last here step rest = .ok (.follow target)) :
    t.walk last (links + 1) here (step :: rest) =
      t.walk last links (target.origin here) (target.steps ++ rest) := by
  simp only [walk, descend, h]

theorem walk_of_error {err : SystemError} (h : t.move last here step rest = .error err) :
    t.walk last links here (step :: rest) = .error err := by
  cases links <;> simp only [walk, descend, h]

theorem walk_of_no_links {target : Path} (h : t.move last here step rest = .ok (.follow target)) :
    t.walk last 0 here (step :: rest) = .error .linkLoop := by
  simp only [walk, descend, h]

/-- Lookups recur on the remaining steps, and behind a link on fewer links with any steps. -/
theorem lookup_induction {motive : Nat → List Bytes → Prop}
    (nil : ∀ links, motive links [])
    (cons : ∀ links step rest, motive links rest →
      (∀ fewer steps, fewer < links → motive fewer steps) → motive links (step :: rest))
    (links : Nat) (steps : List Bytes) : motive links steps := by
  induction links using Nat.strongRecOn generalizing steps with
  | ind links ihLinks =>
    induction steps with
    | nil => exact nil links
    | cons step rest ihRest =>
      exact cons links step rest ihRest fun fewer steps hfewer => ihLinks fewer hfewer steps

theorem walk_eq_ok_iff : t.walk last links here steps = .ok l ↔ Leads t last links here steps l := by
  constructor
  · induction links, steps using lookup_induction generalizing here with
    | nil links =>
      intro h
      rw [walk_nil] at h
      exact Except.ok.inj h ▸ .done links here
    | cons links step rest ihRest ihLinks =>
      intro h
      cases hmove : t.move last here step rest with
      | error err =>
        rw [walk_of_error hmove] at h
        cases h
      | ok m =>
        obtain ⟨hdirectory, hmoves⟩ := move_eq_ok_iff.1 hmove
        cases m with
        | enter m =>
          rw [walk_of_enter hmove] at h
          exact .enter hdirectory hmoves (ihRest h)
        | follow target =>
          cases links with
          | zero =>
            rw [walk_of_no_links hmove] at h
            cases h
          | succ links =>
            rw [walk_of_follow hmove] at h
            exact .follow hdirectory hmoves (ihLinks links _ (Nat.lt_succ_self links) h)
  · intro h
    induction h with
    | done links here => exact walk_nil
    | enter hdirectory hmove _ ih =>
      rwa [walk_of_enter (move_eq_ok_iff.2 ⟨hdirectory, hmove⟩)]
    | follow hdirectory hmove _ ih =>
      rwa [walk_of_follow (move_eq_ok_iff.2 ⟨hdirectory, hmove⟩)]

/-- Lookups that create nothing lead to the same place in a larger tree. -/
theorem Leads.of_partOf (hpart : s.PartOf t) (hlast : last ≠ .create)
    (h : Leads s last links here steps l) : Leads t last links here steps l := by
  induction h with
  | done links here => exact .done links here
  | enter hdirectory hmove _ ih =>
    exact .enter (hpart _ _ hdirectory) (hmove.of_partOf hpart hlast) ih
  | follow hdirectory hmove _ ih =>
    exact .follow (hpart _ _ hdirectory) (hmove.of_partOf hpart hlast) ih

/-- Slashes and `.` can stand in front of any steps. -/
theorem Leads.stay_append (hhere : t.get? here = some .directory) {blank : List Bytes}
    (hblank : ∀ step ∈ blank, Path.staysHere step = true) (h : Leads t last links here steps l) :
    Leads t last links here (blank ++ steps) l := by
  induction blank with
  | nil => exact h
  | cons step blank ih =>
    exact .enter hhere (.stay (hblank step (List.mem_cons_self ..)))
      (ih fun step hstep => hblank step (List.mem_cons_of_mem _ hstep))

theorem Leads.of_stays (hhere : t.get? here = some .directory)
    (hstays : ∀ step ∈ steps, Path.staysHere step = true) : Leads t last links here steps here := by
  have h : Leads t last links here (steps ++ []) here := .stay_append hhere hstays (.done links here)
  rwa [List.append_nil] at h

/-- Slashes and `.` lead nowhere else. -/
theorem Leads.eq_of_stays (h : Leads t last links here steps l)
    (hstays : ∀ step ∈ steps, Path.staysHere step = true) : l = here := by
  induction h with
  | done links here => rfl
  | enter hdirectory hmove _ ih =>
    have hstay := hstays _ List.mem_cons_self
    cases hmove with
    | stay _ => exact ih fun step hstep => hstays step (List.mem_cons_of_mem _ hstep)
    | up hgo _ =>
      rw [hgo] at hstay
      cases hstay
    | down hname _ _ _ | create hname _ _ _ =>
      rw [hname.not_stays] at hstay
      cases hstay
  | follow hdirectory hmove _ _ =>
    have hstay := hstays _ List.mem_cons_self
    cases hmove with
    | follow hname _ _ _ =>
      rw [hname.not_stays] at hstay
      cases hstay

end FileTree
end DocBuild
