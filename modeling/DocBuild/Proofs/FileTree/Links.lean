import DocBuild.Proofs.FileTree.Parent
import DocBuild.Proofs.Path.Ending

namespace DocBuild.FileTree

variable {s t : FileTree} {last : Last} {links : Nat} {cwd here base l : Location} {p q root : Path}
  {front back : List Bytes} {e : Entry} {target : Path}

/-- What lies above a directory is a directory. -/
theorem directory_of_suffix {v : Location} (h : t.get? l = some .directory) (hv : v <:+ l) :
    t.get? v = some .directory := by
  by_cases hsame : l = v
  · exact hsame ▸ h
  · exact directory_of_below h hv hsame

/-- Steps that go down to a directory are taken one after the other, unless a name among them is too
    long. No link is met on the way, since what is passed are directories. -/
theorem walk_down (hlast : last ≠ .create) (hdown : [Bytes.dot, Bytes.dot] ∉ front)
    (hdirectory : t.get? ((front.filter fun step => !Path.isBlank step).reverse ++ here) =
      some .directory) (back : List Bytes) :
    t.walk last links here (front ++ back) =
        t.walk last links ((front.filter fun step => !Path.isBlank step).reverse ++ here) back ∨
      t.walk last links here (front ++ back) = .error .nameTooLong := by
  induction front generalizing here with
  | nil => exact .inl rfl
  | cons step front ih =>
    obtain ⟨hne, hdown⟩ := not_or.1 fun h => hdown (List.mem_cons.2 h)
    rw [List.cons_append]
    cases hblank : Path.isBlank step with
    | true =>
      rw [List.filter_cons_of_neg (by simp [hblank])] at hdirectory ⊢
      have hhere := directory_of_suffix hdirectory (List.suffix_append _ _)
      rw [walk_of_enter (move_eq_ok_iff.2 ⟨hhere, .stay hblank⟩)]
      exact ih hdown hdirectory
    | false =>
      rw [List.filter_cons_of_pos (by simp [hblank]), List.reverse_cons, List.append_assoc] at hdirectory ⊢
      have hnext : t.get? (step :: here) = some .directory :=
        directory_of_suffix hdirectory (List.suffix_append _ _)
      have hup : Path.goesUp step = false := decide_eq_false (Ne.symm hne)
      have hgo : Path.staysHere step = false := hblank
      by_cases hlong : nameLimit < step.length
      · refine .inr (walk_of_error ?_)
        simp [move, get?_parent hnext, hgo, hup, hlong, hlast]
      · have hmove : Moves t last here step (front ++ back) (.enter (step :: here)) :=
          .down ⟨hgo, hup, Nat.le_of_not_lt hlong⟩ (fun h => hlast h.1) hnext (by simp)
        rw [walk_of_enter (move_eq_ok_iff.2 ⟨get?_parent hnext, hmove⟩)]
        exact ih hdown hdirectory

/-- At a link in its place, a lookup that may end there stops if nothing follows, and goes on to where
    the link leads otherwise. -/
theorem Moves.of_link {step : Bytes} {rest : List Bytes} {m : Move}
    (hlink : t.get? (step :: here) = some (.link target)) (hgo : Path.staysHere step = false)
    (hup : Path.goesUp step = false) (h : Moves t .keep here step rest m) :
    m = if rest = [] then .enter (step :: here) else .follow target := by
  cases h with
  | stay hstay =>
    rw [hgo] at hstay
    cases hstay
  | up _ hdown =>
    rw [hup] at hdown
    cases hdown
  | down _ _ hentry hstop =>
    rw [hlink] at hentry
    exact (if_pos (hstop target (Option.some.inj hentry).symm).2).symm
  | create _ _ hlast _ => cases hlast
  | follow _ _ hentry hgoes =>
    rw [hlink] at hentry
    obtain rfl := Entry.link.inj (Option.some.inj hentry)
    exact (if_neg fun hnil => hgoes ⟨rfl, hnil⟩).symm

/-- With slashes and `.` behind it, a path leads to the directory to which it leads without them, all
    links followed. -/
theorem walk_before_stays (hlast : last ≠ .create) (hback : back ≠ [])
    (hstays : ∀ step ∈ back, Path.staysHere step = true)
    (h : t.walk last links here (front ++ back) = .ok l) :
    t.walk .follow links here front = .ok l ∧ t.get? l = some .directory := by
  cases hfront : t.walk .follow links here front with
  | error err =>
    rw [walk_append_eq_error hback hlast hfront] at h
    cases h
  | ok d =>
    obtain ⟨left, hleft⟩ := (walk_eq_ok_iff.1 hfront).walk_append hback hlast
    rw [hleft, walk_eq_ok_iff] at h
    obtain rfl := h.eq_of_stays hstays
    obtain ⟨step, rest, rfl⟩ := List.exists_cons_of_ne_nil hback
    cases h with
    | enter hdirectory _ _ => exact ⟨rfl, hdirectory⟩
    | follow hdirectory _ _ => exact ⟨rfl, hdirectory⟩

/-- A directory that is found is found by the steps of its path that are not empty. -/
theorem walk_of_entry (h : t.entry cwd .follow p = .ok (l, e)) :
    t.walk .follow linkLimit (p.origin cwd) (p.segments.filter (· ≠ [])) = .ok l := by
  have hwalk := walk_eq_ok_iff.2 (locate_eq_ok_iff.1 (entry_eq_ok_iff.1 h).1).2
  unfold Path.steps at hwalk
  dsimp only at hwalk
  split at hwalk
  · exact (walk_before_stays (by decide) (List.cons_ne_nil [] []) (by simp [Path.staysHere]) hwalk).1
  · exact hwalk

section AtLink

variable (hroot : t.entry cwd .follow root = .ok (base, .directory)) (hq : q.Inner)
  (hlink : t.get? (q.names.reverse ++ base) = some (.link target))
include hroot hq hlink

/-- The lookup of a path that goes down to a link comes to the directory that holds it. -/
theorem exists_leads_to_link (h : t.entry cwd .keep (root.join q) = .ok (l, e)) :
    ∃ name holder back left, q.names.reverse ++ base = name :: holder ∧
      (∀ step ∈ back, Path.staysHere step = true) ∧ (q.endsInName = true ↔ back = []) ∧
      Path.staysHere name = false ∧ Path.goesUp name = false ∧
      Leads t .keep left holder (name :: back) l := by
  have hlast : Last.keep ≠ .create := by decide
  obtain ⟨front, name, back, hsteps, hnames, hdown, hgo, hup, hstays, hends⟩ := hq.steps_eq
  have hplace : q.names.reverse ++ base =
      name :: ((front.filter fun step => !Path.isBlank step).reverse ++ base) := by
    rw [hnames, List.reverse_concat, List.cons_append]
  rw [hplace] at hlink
  have hne := ne_nil_of_entry hroot
  have hwalk := walk_eq_ok_iff.2 (locate_eq_ok_iff.1 (entry_eq_ok_iff.1 h).1).2
  rw [hq.steps_join hne, Path.origin_join hne hq.relative, hsteps] at hwalk
  obtain ⟨left, hleft⟩ := (walk_eq_ok_iff.1 (walk_of_entry hroot)).walk_append
    (show front ++ name :: back ≠ [] by simp) hlast
  rw [hleft] at hwalk
  rcases walk_down hlast hdown (get?_parent hlink) (name :: back) with hsame | hlong
  · rw [hsame] at hwalk
    exact ⟨name, _, back, left, hplace, hstays, hends, hgo, hup, walk_eq_ok_iff.1 hwalk⟩
  · rw [hlong] at hwalk
    cases hwalk

/-- A path that ends in the name of a link names the link. -/
theorem entry_of_endsInName (hends : q.endsInName = true)
    (h : t.entry cwd .keep (root.join q) = .ok (l, e)) : l = q.names.reverse ++ base := by
  obtain ⟨name, holder, back, left, hplace, -, hback, hgo, hup, hleads⟩ :=
    exists_leads_to_link hroot hq hlink h
  rw [hplace] at hlink ⊢
  obtain rfl := hback.1 hends
  cases hleads with
  | enter _ hmove hrest =>
    cases hmove.of_link hlink hgo hup
    cases hrest
    rfl
  | follow _ hmove _ => cases hmove.of_link hlink hgo hup

/-- A path with a slash or a `.` behind the name of a link names the directory to which the link
    leads from where it is. -/
theorem entry_of_not_endsInName (hends : q.endsInName = false)
    (h : t.entry cwd .keep (root.join q) = .ok (l, e)) :
    e = .directory ∧
      ∃ links, t.walk .follow links (target.origin (q.names.reverse ++ base).tail) target.steps =
        .ok l := by
  obtain ⟨name, holder, back, left, hplace, hstays, hback, hgo, hup, hleads⟩ :=
    exists_leads_to_link hroot hq hlink h
  rw [hplace] at hlink ⊢
  have hne : back ≠ [] := by
    intro hnil
    rw [hback.2 hnil] at hends
    cases hends
  cases hleads with
  | enter _ hmove _ =>
    have hgoes := hmove.of_link hlink hgo hup
    rw [if_neg hne] at hgoes
    cases hgoes
  | follow _ hmove hrest =>
    have hgoes := hmove.of_link hlink hgo hup
    rw [if_neg hne] at hgoes
    obtain rfl := Move.follow.inj hgoes
    obtain ⟨hwalk, hdirectory⟩ :=
      walk_before_stays (by decide) hne hstays (walk_eq_ok_iff.2 hrest)
    have hfound := (entry_eq_ok_iff.1 h).2
    rw [hdirectory] at hfound
    exact ⟨(Option.some.inj hfound).symm, _, hwalk⟩

end AtLink

/-- Nothing lies below a link, so no more than the link is lost there. -/
theorem Loses.of_link {region : Location → Prop} (hlink : t.get? l = some (.link target))
    (h : t.Loses s fun k => l <:+ k ∨ region k) : t.Loses s fun k => k = l ∨ region k := by
  intro k
  rcases h k with hsame | ⟨hnone, hbelow | hregion⟩
  · exact .inl hsame
  · by_cases hplace : k = l
    · exact .inr ⟨hnone, .inl hplace⟩
    refine .inl (hnone.trans (Option.eq_none_iff_forall_ne_some.2 fun e hentry => ?_).symm)
    rw [directory_of_below hentry hbelow hplace] at hlink
    cases hlink
  · exact .inr ⟨hnone, .inr hregion⟩

end DocBuild.FileTree
