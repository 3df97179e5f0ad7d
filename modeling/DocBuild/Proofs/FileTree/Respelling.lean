import DocBuild.Proofs.FileTree.Emptying
import DocBuild.Proofs.FileTree.Fresh

namespace DocBuild

namespace Path

open Bytes (dot)

/-- The step that a component stands for, if it leads anywhere. -/
def Component.step? : Component → Option Bytes
  | .root | .here => none
  | .up => some [dot, dot]
  | .name n => some n

theorem names_eq_filterMap (p : Path) : p.names = p.components.filterMap Component.step? := by
  have hkept (segment : Bytes) : (component? segment).bind Component.step? =
      if !isBlank segment then some segment else none := by
    unfold component? isBlank
    by_cases hblank : segment = [] ∨ segment = [dot]
    · rcases hblank with rfl | rfl <;> rfl
    · by_cases hup : segment = [dot, dot]
      · simp [hup, Component.step?, dot]
      · simp only [not_or] at hblank
        simp [hblank, hup, Component.step?]
  have hfirst : ((if p.isAbsolute then [.root] else if p.beginsHere then [.here] else [] :
      List Component)).filterMap Component.step? = [] := by
    split
    · rfl
    · split <;> rfl
  rw [components, List.filterMap_append, hfirst, List.nil_append, List.filterMap_filterMap, names,
    ← List.filterMap_eq_filter]
  exact List.filterMap_congr fun segment _ => by simp [hkept, Option.guard]

theorem isAbsolute_iff_root_mem (p : Path) : p.isAbsolute = true ↔ .root ∈ p.components := by
  have hsegments : Component.root ∉ p.segments.filterMap component? := by
    simp only [List.mem_filterMap, not_exists, not_and]
    intro segment _
    unfold component?
    split
    · simp
    · split <;> simp
  rw [components, List.mem_append, or_iff_left hsegments]
  split
  · simp [*]
  · split <;> simp [*]

variable {p q : Path}

theorem names_congr (h : q.components = p.components) : q.names = p.names := by
  rw [names_eq_filterMap, names_eq_filterMap, h]

theorem origin_congr (h : q.components = p.components) (cwd : Location) :
    q.origin cwd = p.origin cwd := by
  have habsolute : q.isAbsolute = p.isAbsolute := by
    rw [Bool.eq_iff_iff, isAbsolute_iff_root_mem, isAbsolute_iff_root_mem, h]
  rw [origin, origin, habsolute]

end Path

namespace FileTree

variable {r s t : FileTree} {last last' : Last} {links : Nat} {cwd here l m d : Location}
  {steps : List Bytes} {p q : Path} {e f : Entry} {obstacles : Obstacles}

/-- The last step of the path finds nothing to take: its directory is missing, or does not hold the
    last name. -/
def NotHeld (t : FileTree) (cwd : Location) (p : Path) : Prop :=
  t.parentOf cwd p = .error (.system .noEntry) ∨
    ∃ d n slash, t.parentOf cwd p = .ok (d, .name n slash) ∧ t.get? (n :: d) = none

theorem notHeld_of_prune {d : Location} {n : Name} {slash : Bool}
    (h : t.parentOf cwd p = .ok (d, .name n slash)) : (t.prune (n :: d)).NotHeld cwd p := by
  rcases parentOf_same_or_missing (loses_prune t (n :: d)).partOf cwd p with hsame | hmissing
  · refine .inr ⟨d, n, slash, hsame.trans h, ?_⟩
    rw [get?_prune (List.cons_ne_nil n d), if_pos (List.suffix_refl _)]
  · exact .inl hmissing

theorem notHeld_of_removeDirectory (h : t.removeDirectory cwd p = .ok r) : r.NotHeld cwd p := by
  unfold removeDirectory at h
  obtain ⟨⟨d, final⟩, hparent, h⟩ := Sequence.bind_eq_ok_iff.1 h
  cases final with
  | root | here | up => cases h
  | name n slash =>
    dsimp only at h
    split at h
    · cases h
    · split at h
      · obtain rfl := Except.ok.inj h
        exact notHeld_of_prune hparent
      · cases h
    · cases h

theorem notHeld_of_removeDirectory_missing
    (h : t.removeDirectory cwd p = .error (.system .noEntry)) : t.NotHeld cwd p := by
  unfold removeDirectory at h
  rcases Sequence.bind_eq_error_iff.1 h with hparent | ⟨⟨d, final⟩, hparent, h⟩
  · exact .inl hparent
  cases final with
  | root | here | up => cases h
  | name n slash =>
    dsimp only at h
    split at h
    · next hnone => exact .inr ⟨d, n, slash, hparent, hnone⟩
    · split at h <;> cases h
    · cases h

theorem notHeld_of_removeFile (h : t.removeFile cwd p = .ok r) : r.NotHeld cwd p := by
  unfold removeFile at h
  obtain ⟨⟨d, final⟩, hparent, h⟩ := Sequence.bind_eq_ok_iff.1 h
  cases final with
  | root | here | up => cases h
  | name n slash =>
    dsimp only at h
    split at h
    · cases h
    · cases h
    · split at h
      · cases h
      · obtain rfl := Except.ok.inj h
        exact notHeld_of_prune hparent

/-- A removal that has found something leaves nothing for the last step of its path. -/
theorem notHeld_of_removeForced (h : t.removeForced obstacles cwd p = (r, .ok true)) :
    r.NotHeld cwd p := by
  unfold removeForced at h
  split at h
  · split at h <;> cases h
  split at h
  · cases h
  · dsimp only at h
    split at h
    · next hremove =>
      cases h
      exact notHeld_of_removeDirectory hremove
    · next hremove =>
      split at h
      · next hmissing =>
        cases h
        rw [isMissing_iff.1 hmissing] at hremove
        exact notHeld_of_removeDirectory_missing hremove
      · cases h
  · split at h
    · next hremove =>
      cases h
      exact notHeld_of_removeFile hremove
    · split at h <;> cases h

/-- Where the last step finds nothing it is a name or climbs, unless it is a `.`. -/
theorem NotHeld.exists_lastStep (h : t.NotHeld cwd p) (hcheck : checkPath p = .ok ())
    (hend : p.endsHere = false) :
    ∃ front step, p.steps.filter (· ≠ []) = front ++ [step] ∧ Path.staysHere step = false := by
  cases hstep : p.lastStep? with
  | none =>
    rw [Path.lastStep?, ← Path.filter_steps] at hstep
    have hroot : t.parentOf cwd p = .ok ([], .root) := by
      simp only [parentOf, hcheck, hstep, bind, Except.bind, pure, Except.pure]
    rcases h with hmissing | ⟨d, n, slash, hname, -⟩
    · rw [hroot] at hmissing
      cases hmissing
    · rw [hroot] at hname
      cases hname
  | some step =>
    obtain ⟨front, hnamed⟩ := List.getLast?_eq_some_iff.1 hstep
    have hempty : step ≠ [] := by
      have hmem : step ∈ p.segments.filter (· ≠ []) :=
        hnamed ▸ List.mem_append_right _ (List.mem_singleton_self step)
      simpa using (List.mem_filter.1 hmem).2
    have hdot : step ≠ [Bytes.dot] := by
      rintro rfl
      rw [Path.endsHere_iff.2 hstep] at hend
      cases hend
    exact ⟨front, step, by rw [Path.filter_steps, hnamed], by simp [Path.staysHere, hempty, hdot]⟩

/-- A path with the same components names nothing either, unless a `.` stands behind the last name of
    the path that was looked for: it comes to the same directory before it takes the last step. -/
theorem NotHeld.not_entry (h : t.NotHeld cwd p) (hcheck : checkPath p = .ok ())
    (hsame : q.components = p.components) (hend : p.endsHere = false) :
    t.entry cwd .keep q ≠ .ok (l, e) := by
  intro hq
  have hlast : Last.keep ≠ .create := by decide
  obtain ⟨front, step, hnamed, hgo⟩ := h.exists_lastStep hcheck hend
  have hnames : Path.moving q.steps = Path.moving front ++ [step] := by
    have hback : Path.moving (if p.getLast? = some Bytes.slash then [step, []] else [step]) =
        [step] := by
      have hempty : Path.staysHere [] = true := rfl
      split <;> simp [Path.moving, hgo, hempty]
    rw [Path.moving_steps, Path.names_congr hsame, ← Path.moving_steps, steps_eq_of_named hnamed,
      Path.moving, List.filter_append]
    exact congrArg _ hback
  obtain ⟨qfront, back, hsteps, hfront, -, -⟩ := Path.filter_eq_concat hnames
  have hleads := (locate_eq_ok_iff.1 (entry_eq_ok_iff.1 hq).1).2
  rw [hsteps, Path.origin_congr hsame] at hleads
  obtain ⟨d, left, hbefore, hleads⟩ := hleads.exists_leads_before hlast
  obtain ⟨hdirectory, hkind⟩ := hleads.start
  have hparent := parentOf_of_leads hcheck hnamed (hbefore.of_moving_eq hdirectory hfront)
    hdirectory hkind
  rcases h with hmissing | ⟨d', n, slash, hname, hnone⟩
  · rw [hparent] at hmissing
    cases hmissing
  · rw [hparent] at hname
    obtain ⟨rfl, hfinal⟩ := Prod.mk.inj (Except.ok.inj hname)
    unfold FinalStep.ofStep at hfinal
    rw [hgo] at hfinal
    cases hup : Path.goesUp step with
    | true =>
      rw [hup] at hfinal
      cases hfinal
    | false =>
      rw [hup] at hfinal
      cases hfinal
      obtain ⟨err, herr⟩ : ∃ err, t.walk .keep left d (step :: back) = .error err :=
        walk_of_free hdirectory hgo hup hnone hlast
      rw [walk_eq_ok_iff.2 hleads] at herr
      cases herr

/-- A path that ends in a `.` names a directory, however the last link is treated. -/
theorem entry_of_endsHere (hend : p.endsHere = true) (hlast : last ≠ .create)
    (hlast' : last' ≠ .create) (h : t.entry cwd last p = .ok (l, e)) :
    t.entry cwd last' p = .ok (l, .directory) := by
  obtain ⟨d, left, hparent, -⟩ := parentOf_of_entry hlast (Path.endsHere_iff.1 hend) h
  have hhere := entry_of_parentOf_here hlast hparent
  rw [h] at hhere
  cases hhere
  exact entry_of_parentOf_here hlast' hparent

theorem Leads.follow_of_keep (h : Leads t .keep links here steps l) (hentry : t.get? l = some e)
    (hlink : ∀ target, e ≠ .link target) : Leads t .follow links here steps l := by
  induction h with
  | done links here => exact .done links here
  | enter hdirectory hmove hrest ih =>
    refine .enter hdirectory ?_ (ih hentry)
    cases hmove with
    | stay hstay => exact .stay hstay
    | up hgo hup => exact .up hgo hup
    | down hname _ hthere hstop =>
      refine .down hname (by simp) hthere fun target htarget => ?_
      obtain ⟨-, rfl⟩ := hstop target htarget
      cases hrest
      rw [hentry] at hthere
      exact absurd ((Option.some.inj hthere).trans htarget) (hlink target)
    | create _ _ hlast _ => cases hlast
  | follow hdirectory hmove _ ih =>
    refine .follow hdirectory ?_ (ih hentry)
    cases hmove with
    | follow hname _ hthere _ => exact .follow hname (by simp) hthere (by simp)

/-- What a path names it also names with links followed, unless that is a link. -/
theorem entry_follow_of_keep (h : t.entry cwd .keep p = .ok (l, e))
    (hlink : ∀ target, e ≠ .link target) : t.entry cwd .follow p = .ok (l, e) := by
  obtain ⟨hlocate, hentry⟩ := entry_eq_ok_iff.1 h
  obtain ⟨hcheck, hleads⟩ := locate_eq_ok_iff.1 hlocate
  exact entry_eq_ok_iff.2
    ⟨locate_eq_ok_iff.2 ⟨hcheck, hleads.follow_of_keep hentry hlink⟩, hentry⟩

/-- Paths with the same components name the same directory. -/
theorem entry_follow_congr (h : t.entry cwd .follow q = .ok (d, .directory))
    (hsame : q.components = p.components) (hcheck : checkPath p = .ok ()) :
    t.entry cwd .follow p = .ok (d, .directory) := by
  obtain ⟨hlocate, hdirectory⟩ := entry_eq_ok_iff.1 h
  have hleads := (locate_eq_ok_iff.1 hlocate).2
  have hmoving : Path.moving q.steps = Path.moving p.steps := by
    rw [Path.moving_steps, Path.moving_steps, Path.names_congr hsame]
  rw [Path.origin_congr hsame] at hleads
  exact entry_eq_ok_iff.2
    ⟨locate_eq_ok_iff.2 ⟨hcheck, hleads.of_moving_eq hdirectory hmoving⟩, hdirectory⟩

/-- A path ends in a `.` and its directory is gone. What a path with the same components still names is
    a link: a directory would be that of the first path, and a file could not have been. -/
theorem exists_link_of_endsHere (hend : p.endsHere = true) (hp : t.entry cwd .keep p = .ok (l, e))
    (hpart : s.PartOf t) (hgone : s.entry cwd .keep p = .error (.system .noEntry))
    (hsame : q.components = p.components) (hq : s.entry cwd .keep q = .ok (m, f)) :
    ∃ target, t.entry cwd .keep q = .ok (m, .link target) := by
  have hkeep : Last.keep ≠ .create := by decide
  have hfollow : Last.follow ≠ .create := by decide
  have hbefore := entry_of_partOf hpart hkeep hq
  have hcheck := (locate_eq_ok_iff.1 (entry_eq_ok_iff.1 hp).1).1
  cases f with
  | link target => exact ⟨target, hbefore⟩
  | directory =>
    have hsecond := entry_follow_congr (entry_follow_of_keep hq nofun) hsame hcheck
    rw [entry_of_endsHere hend hfollow hkeep hsecond] at hgone
    cases hgone
  | file content executable =>
    have hfile := entry_follow_of_keep hbefore nofun
    have hfirst := entry_of_endsHere hend hkeep hfollow hp
    have hcheck' := (locate_eq_ok_iff.1 (entry_eq_ok_iff.1 hbefore).1).1
    rw [entry_follow_congr hfirst hsame.symm hcheck'] at hfile
    cases hfile

end FileTree
end DocBuild
