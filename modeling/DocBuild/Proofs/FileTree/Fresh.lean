import DocBuild.Proofs.FileTree.Growth
import DocBuild.Proofs.Path.Parent

namespace DocBuild

namespace Path

/-- The steps that lead somewhere else. -/
def moving (steps : List Bytes) : List Bytes :=
  steps.filter fun step => !staysHere step

theorem moving_steps (p : Path) : moving p.steps = p.names := by
  have hnamed : moving (p.segments.filter (· ≠ [])) = p.names := by
    rw [moving, List.filter_filter, names]
    refine List.filter_congr fun segment _ => ?_
    cases segment <;> simp [isBlank, staysHere]
  rw [steps]
  split
  · rw [moving, List.filter_append]
    exact (List.append_nil _).trans hnamed
  · exact hnamed

end Path

namespace FileTree

variable {s t : FileTree} {last : Last} {cwd here d : Location} {links : Nat} {step x : Bytes}
  {rest steps steps' : List Bytes} {p q : Path}

/-- Links followed or not, a step that only looks up does not depend on those behind it. -/
theorem Moves.of_rest {m : Move} {rest' : List Bytes} (h : Moves t .follow here step rest m) :
    Moves t .follow here step rest' m := by
  cases h with
  | stay hstay => exact .stay hstay
  | up hgo hup => exact .up hgo hup
  | down hname _ hentry hstop =>
    exact .down hname (by simp) hentry fun target htarget => nomatch (hstop target htarget).1
  | create _ _ hlast _ => cases hlast
  | follow hname _ hlink _ => exact .follow hname (by simp) hlink (by simp)

/-- Steps that stay where they are can come and go on the way to a directory. -/
theorem Leads.of_moving_eq (h : Leads t .follow links here steps d) (hd : t.get? d = some .directory)
    (hsame : Path.moving steps = Path.moving steps') : Leads t .follow links here steps' d := by
  have hcons {step : Bytes} {rest steps' : List Bytes} (hgo : Path.staysHere step = false)
      (hsame : Path.moving (step :: rest) = Path.moving steps') :
      ∃ blank back, steps' = blank ++ step :: back ∧ (∀ x ∈ blank, Path.staysHere x = true) ∧
        Path.moving rest = Path.moving back := by
    rw [Path.moving, List.filter_cons_of_pos (by simp [hgo])] at hsame
    obtain ⟨blank, back, hsteps, hblank, -, hback⟩ := List.filter_eq_cons_iff.1 hsame.symm
    exact ⟨blank, back, hsteps, fun x hx => by simpa using hblank x hx, hback.symm⟩
  induction h generalizing steps' with
  | done links here =>
    have hblank : ∀ x ∈ steps', Path.staysHere x = true := by
      simpa [Path.moving] using hsame.symm
    exact .of_stays hd hblank
  | @enter links here m l step rest hdirectory hmove _ ih =>
    cases hstay : Path.staysHere step with
    | true =>
      have hm : m = here := by rw [hmove.eq_advance, Path.advance, if_pos hstay]
      subst hm
      refine ih hd ?_
      rwa [Path.moving, List.filter_cons_of_neg (by simp [hstay])] at hsame
    | false =>
      obtain ⟨blank, back, rfl, hblank, hback⟩ := hcons hstay hsame
      exact .stay_append hdirectory hblank (.enter hdirectory hmove.of_rest (ih hd hback))
  | @follow links here l step rest target hdirectory hmove _ ih =>
    have hgo : Path.staysHere step = false := by
      cases hmove with
      | follow hname _ _ _ => exact hname.not_stays
    obtain ⟨blank, back, rfl, hblank, hback⟩ := hcons hgo hsame
    refine .stay_append hdirectory hblank (.follow hdirectory hmove.of_rest (ih hd ?_))
    simp only [Path.moving, List.filter_append] at hback ⊢
    rw [hback]

/-- Nothing is below the place. -/
def NothingBelow (t : FileTree) (d : Location) : Prop :=
  ∀ k, d <:+ k → k ≠ d → t.get? k = none

/-- A path that goes on from an empty directory by a name does not name anything. -/
theorem not_entry_below (hq : t.entry cwd .follow q = .ok (d, .directory)) (hempty : t.NothingBelow d)
    (hnames : p.names = q.names ++ [x]) (hstart : q.isAbsolute = p.isAbsolute)
    (hup : Path.goesUp x = false) (k : Location) (e : Entry) :
    t.entry cwd .follow p ≠ .ok (k, e) := by
  intro hp
  obtain ⟨hlocate, hd⟩ := entry_eq_ok_iff.1 hq
  have hleads := (locate_eq_ok_iff.1 hlocate).2
  have hwalk := walk_eq_ok_iff.2 (locate_eq_ok_iff.1 (entry_eq_ok_iff.1 hp).1).2
  rw [← Path.moving_steps, Path.moving] at hnames
  obtain ⟨front, behind, hsteps, hfront, hbehind⟩ := List.filter_eq_append_iff.1 hnames
  obtain ⟨blank, back, rfl, hblank, hstay, -⟩ := List.filter_eq_cons_iff.1 hbehind
  have hmoving : Path.moving q.steps = Path.moving (front ++ blank) := by
    have hnone : blank.filter (fun step => !Path.staysHere step) = [] :=
      List.filter_eq_nil_iff.2 fun step hstep => hblank step hstep
    rw [Path.moving_steps, Path.moving, List.filter_append, hfront, hnone, List.append_nil]
  have horigin : q.origin cwd = p.origin cwd := by rw [Path.origin, Path.origin, hstart]
  rw [horigin] at hleads
  obtain ⟨left, hleft⟩ := (hleads.of_moving_eq hd hmoving).walk_append (List.cons_ne_nil x back)
    (show Last.follow ≠ .create by decide)
  have hfree : t.get? (x :: d) = none := hempty _ (List.suffix_cons x d) (by simp)
  obtain ⟨err, herr⟩ : ∃ err, t.walk .follow left d (x :: back) = .error err :=
    walk_of_free hd (by simpa using hstay) hup hfree (by decide)
  rw [hsteps, ← List.append_assoc, hleft, herr] at hwalk
  cases hwalk

theorem not_entry_of_parent_empty (hparent : p.parent? = some q)
    (hup : ∀ x ∈ p.names, Path.goesUp x = false)
    (hq : t.entry cwd .follow q = .ok (d, .directory)) (hempty : t.NothingBelow d) (k : Location)
    (e : Entry) : t.entry cwd .follow p ≠ .ok (k, e) := by
  obtain ⟨x, hnames, hstart⟩ := Path.names_parent hparent (ne_nil_of_entry hq)
  have hx := hup x (hnames ▸ List.mem_append_right _ (List.mem_singleton_self x))
  exact not_entry_below hq hempty hnames hstart hx k e

/-- A directory that has been created is empty. -/
theorem makeDirectory_fresh (h : t.makeDirectory cwd p = .ok s) :
    ∃ d, s.entry cwd .follow p = .ok (d, .directory) ∧ s.NothingBelow d := by
  obtain ⟨l, n, slash, hparent, hfree, rfl⟩ := makeDirectory_eq_ok h
  have hheld := (heldIn_of_parentOf hparent).1
  have hplace : t.hasPlace n l = true := by
    simp [hasPlace, isDirectory, hheld.directory, hfree]
  refine ⟨n :: l, ?_, ?_⟩
  · refine (hheld.of_partOf (grows_put hfree).partOf).entry_eq (by decide) ?_ (by simp) fun _ => rfl
    rw [get?_put hplace, if_pos rfl]
  · intro k hbelow hne
    rw [get?_put_of_ne hne]
    exact get?_eq_none_of_suffix hfree hbelow

/-- A directory that is created after its ancestors is empty, unless these have made the path name a
    directory already. -/
theorem makeDirectories_cons_fresh {ancestors : List Path}
    (hancestors : ∀ r, makeDirectories cwd ancestors t = (r, .ok ()) →
      r.isDirectoryPath cwd q = true → r = t)
    (h : makeDirectories cwd (q :: ancestors) t = (s, .ok ())) :
    s = t ∨ ∃ d, s.entry cwd .follow q = .ok (d, .directory) ∧ s.NothingBelow d := by
  unfold makeDirectories at h
  split at h
  · cases h
    exact .inl rfl
  split at h
  · next r hmake =>
    cases h
    exact .inr (makeDirectory_fresh hmake)
  split at h
  · split at h
    · cases h
    next r hmade =>
    split at h
    · next r' hagain =>
      cases h
      exact .inr (makeDirectory_fresh hagain)
    split at h
    · next hdirectory =>
      cases h
      exact .inl (hancestors _ hmade hdirectory)
    · cases h
  split at h
  · cases h
    exact .inl rfl
  · cases h

/-- Creating a directory with its ancestors along a path without `..` creates nothing, or ends with
    an empty directory. -/
theorem makeDirectories_fresh {fuel : Nat} (hup : ∀ x ∈ q.names, Path.goesUp x = false)
    (h : makeDirectories cwd (lineage.go fuel q) t = (s, .ok ())) :
    s = t ∨ ∃ d, s.entry cwd .follow q = .ok (d, .directory) ∧ s.NothingBelow d := by
  have hnone (q : Path) (r : FileTree) (hmade : makeDirectories cwd [] t = (r, .ok ()))
      (_ : r.isDirectoryPath cwd q = true) : r = t := by
    cases hmade
    rfl
  induction fuel generalizing q s with
  | zero => exact makeDirectories_cons_fresh (hnone q) h
  | succ fuel ih =>
    rw [lineage.go] at h
    split at h
    · next parent hparent =>
      refine makeDirectories_cons_fresh (fun r hmade hq => ?_) h
      have hparentUp : ∀ x ∈ parent.names, Path.goesUp x = false :=
        fun x hx => hup x (Path.names_subset_of_parent hparent hx)
      rcases ih hparentUp hmade with hsame | ⟨d, hd, hempty⟩
      · exact hsame
      · obtain ⟨k, hk⟩ := isDirectoryPath_iff.1 hq
        exact absurd hk (not_entry_of_parent_empty hparent hup hd hempty k .directory)
    · exact makeDirectories_cons_fresh (hnone q) h

end FileTree
end DocBuild
