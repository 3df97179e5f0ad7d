import DocBuild.Proofs.FileTree.Walk

namespace DocBuild.FileTree

variable {s t : FileTree} {last : Last} {links : Nat} {here l : Location} {step : Bytes}
  {rest steps : List Bytes}

/-- The places passed as far as no link is to be followed; `follow` goes on behind a link. -/
def trailWith (t : FileTree) (last : Last) (follow : Location → Path → List Bytes → List Location) :
    Location → List Bytes → List Location
  | here, [] => [here]
  | here, step :: rest =>
    here ::
      match t.move last here step rest with
      | .error _ => []
      | .ok (.enter l) => trailWith t last follow l rest
      | .ok (.follow target) => (step :: here) :: follow here target rest

/-- The places that a lookup passes, the links it follows and the place it leads to included. -/
def trail (t : FileTree) (last : Last) : Nat → Location → List Bytes → List Location
  | 0 => t.trailWith last fun _ _ _ => []
  | links + 1 => t.trailWith last fun here target rest =>
    trail t last links (target.origin here) (target.steps ++ rest)

theorem trail_nil : t.trail last links here [] = [here] := by
  cases links <;> rfl

theorem trail_of_enter {m : Location} (hdirectory : t.get? here = some .directory)
    (hmove : Moves t last here step rest (.enter m)) :
    t.trail last links here (step :: rest) = here :: t.trail last links m rest := by
  have h := move_eq_ok_iff.2 ⟨hdirectory, hmove⟩
  cases links <;> simp only [trail, trailWith, h]

theorem trail_of_follow {target : Path} (hdirectory : t.get? here = some .directory)
    (hmove : Moves t last here step rest (.follow target)) :
    t.trail last (links + 1) here (step :: rest) =
      here :: (step :: here) ::
        t.trail last links (target.origin here) (target.steps ++ rest) := by
  have h := move_eq_ok_iff.2 ⟨hdirectory, hmove⟩
  simp only [trail, trailWith, h]

theorem start_mem_trail : here ∈ t.trail last links here steps := by
  cases links <;> cases steps <;> simp [trail, trailWith]

/-- A lookup passes the place it leads to. -/
theorem Leads.mem_trail (h : Leads t last links here steps l) : l ∈ t.trail last links here steps := by
  induction h with
  | done links here => exact start_mem_trail
  | enter hdirectory hmove _ ih =>
    rw [trail_of_enter hdirectory hmove]
    exact List.mem_cons_of_mem _ ih
  | follow hdirectory hmove _ ih =>
    rw [trail_of_follow hdirectory hmove]
    exact List.mem_cons_of_mem _ (List.mem_cons_of_mem _ ih)

/-- Where a lookup finds an entry in the end, it finds entries all the way. -/
theorem Leads.exists_of_mem_trail {e : Entry} (h : Leads t last links here steps l)
    (hentry : t.get? l = some e) {v : Location} (hv : v ∈ t.trail last links here steps) :
    ∃ f, t.get? v = some f := by
  induction h with
  | done links here =>
    rw [trail_nil, List.mem_singleton] at hv
    exact ⟨e, hv ▸ hentry⟩
  | enter hdirectory hmove _ ih =>
    rw [trail_of_enter hdirectory hmove, List.mem_cons] at hv
    rcases hv with rfl | hv
    · exact ⟨_, hdirectory⟩
    · exact ih hentry hv
  | follow hdirectory hmove _ ih =>
    rw [trail_of_follow hdirectory hmove, List.mem_cons, List.mem_cons] at hv
    rcases hv with rfl | rfl | hv
    · exact ⟨_, hdirectory⟩
    · cases hmove with
      | follow _ _ hlink _ => exact ⟨_, hlink⟩
    · exact ih hentry hv

/-- A move is the same in a tree with the same entry at the step. -/
theorem Moves.of_agree {m : Move} (h : Moves t last here step rest m)
    (hagree : s.get? (step :: here) = t.get? (step :: here)) : Moves s last here step rest m := by
  cases h with
  | stay hstay => exact .stay hstay
  | up hgo hup => exact .up hgo hup
  | down hname hrest hentry hstop => exact .down hname hrest (hagree ▸ hentry) hstop
  | create hname hfree hlast hrest => exact .create hname (hagree ▸ hfree) hlast hrest
  | follow hname hrest hlink hgo => exact .follow hname hrest (hagree ▸ hlink) hgo

/-- A lookup leads to the same place in a tree with the same entries on its trail. -/
theorem Leads.of_agree (h : Leads t last links here steps l)
    (hagree : ∀ v ∈ t.trail last links here steps, s.get? v = t.get? v) :
    Leads s last links here steps l := by
  induction h with
  | done links here => exact .done links here
  | @enter links here m l step rest hdirectory hmove _ ih =>
    rw [trail_of_enter hdirectory hmove] at hagree
    have hhere := hagree here (List.mem_cons_self ..)
    refine .enter (hhere ▸ hdirectory) ?_ (ih fun v hv => hagree v (List.mem_cons_of_mem _ hv))
    cases hmove with
    | stay hstay => exact .stay hstay
    | up hgo hup => exact .up hgo hup
    | down hname hrest hentry hstop =>
      exact (Moves.down hname hrest hentry hstop).of_agree
        (hagree _ (List.mem_cons_of_mem _ start_mem_trail))
    | create hname hfree hlast hrest =>
      exact (Moves.create hname hfree hlast hrest).of_agree
        (hagree _ (List.mem_cons_of_mem _ start_mem_trail))
  | @follow links here l step rest target hdirectory hmove _ ih =>
    rw [trail_of_follow hdirectory hmove] at hagree
    have hhere := hagree here (List.mem_cons_self ..)
    have hstep := hagree (step :: here) (List.mem_cons_of_mem _ (List.mem_cons_self ..))
    exact .follow (hhere ▸ hdirectory) (hmove.of_agree hstep)
      (ih fun v hv => hagree v (List.mem_cons_of_mem _ (List.mem_cons_of_mem _ hv)))

/-- A lookup that succeeds in a part of a tree passes the same places as in the whole tree. -/
theorem Leads.trail_eq (h : Leads s last links here steps l) (hpart : s.PartOf t)
    (hlast : last ≠ .create) :
    t.trail last links here steps = s.trail last links here steps := by
  induction h with
  | done links here => rw [trail_nil, trail_nil]
  | enter hdirectory hmove _ ih =>
    rw [trail_of_enter hdirectory hmove,
      trail_of_enter (hpart _ _ hdirectory) (hmove.of_partOf hpart hlast), ih]
  | follow hdirectory hmove _ ih =>
    rw [trail_of_follow hdirectory hmove,
      trail_of_follow (hpart _ _ hdirectory) (hmove.of_partOf hpart hlast), ih]

end DocBuild.FileTree
