import DocBuild.Proofs.Path.Place

namespace DocBuild.Path

open Bytes (dot)

/-- The last of the segments that are steps. -/
def lastStep? (p : Path) : Option Bytes :=
  (p.segments.filter (· ≠ [])).getLast?

/-- The last step of the path is a `.`; slashes may stand behind it. -/
def endsHere (p : Path) : Bool :=
  p.lastStep? = some [dot]

/-- The last step of a lookup is a name: neither a slash nor a `.` stands behind it. -/
def endsInName (p : Path) : Bool :=
  p.steps.getLast?.any fun step => !staysHere step

theorem endsHere_iff {p : Path} : p.endsHere = true ↔ p.lastStep? = some [dot] :=
  decide_eq_true_iff

theorem filter_steps (p : Path) : p.steps.filter (· ≠ []) = p.segments.filter (· ≠ []) := by
  unfold steps
  split <;> simp

/-- An inner path has a last step, and that does not climb. -/
theorem Inner.exists_lastStep {q : Path} (hq : q.Inner) :
    ∃ step, q.lastStep? = some step ∧ step ≠ [] ∧ goesUp step = false := by
  have hsteps : q.segments.filter (· ≠ []) ≠ [] := by
    obtain ⟨name, hname⟩ := List.exists_mem_of_ne_nil _ hq.named
    obtain ⟨hmem, hkept⟩ := List.mem_filter.1 hname
    refine List.ne_nil_of_mem (a := name) (List.mem_filter.2 ⟨hmem, ?_⟩)
    have hkept' : name ≠ [] ∧ name ≠ [dot] := by simpa [isBlank] using hkept
    simpa using hkept'.1
  obtain ⟨step, hstep⟩ := Option.ne_none_iff_exists'.1 (mt List.getLast?_eq_none_iff.1 hsteps)
  obtain ⟨hmem, hkept⟩ := List.mem_filter.1 (List.mem_of_getLast? hstep)
  refine ⟨step, hstep, by simpa using hkept, decide_eq_false fun hup => hq.descends ?_⟩
  exact hup ▸ hmem

/-- Joining keeps the end of the path that is joined. -/
theorem Inner.lastStep?_join {q : Path} (hq : q.Inner) (p : Path) :
    (p.join q).lastStep? = q.lastStep? := by
  by_cases hp : p = []
  · rw [hp, nil_join hq.relative]
  obtain ⟨front, back, -, -, -, -, hjoin⟩ := segments_join hp hq.relative
  obtain ⟨step, hstep, -⟩ := hq.exists_lastStep
  unfold lastStep? at hstep ⊢
  rw [hjoin, List.filter_append, List.getLast?_append, hstep, Option.some_or]

theorem Inner.endsHere_join {q : Path} (hq : q.Inner) (p : Path) :
    (p.join q).endsHere = q.endsHere := by
  rw [endsHere, endsHere, hq.lastStep?_join]

/-- Behind the steps of a path come those of the path that is joined; a slash at the end of the first
    is not seen any more. -/
theorem Inner.steps_join {p q : Path} (hp : p ≠ []) (hq : q.Inner) :
    (p.join q).steps = p.segments.filter (· ≠ []) ++ q.steps := by
  obtain ⟨front, back, -, hback, hsegments, -, hjoin⟩ := segments_join hp hq.relative
  have hblank : back.filter (· ≠ []) = [] := by
    rcases hback with rfl | rfl <;> rfl
  have hlast : (p.join q).getLast? = q.getLast? := by
    obtain ⟨b, hb⟩ := Option.ne_none_iff_exists'.1 (mt List.getLast?_eq_none_iff.1 hq.ne_nil)
    simp only [Path.join, hq.relative, Bool.false_eq_true, if_false]
    split <;> simp [List.getLast?_append, List.getLast?_cons, hb]
  unfold steps
  rw [hjoin, hsegments, hlast, List.filter_append, List.filter_append, hblank, List.append_nil]
  split <;> simp

theorem Inner.steps_ne_nil {q : Path} (hq : q.Inner) : q.steps ≠ [] := by
  obtain ⟨step, hstep, -⟩ := hq.exists_lastStep
  intro hnil
  rw [lastStep?, ← filter_steps, hnil] at hstep
  cases hstep

theorem Inner.endsInName_join {p q : Path} (hp : p ≠ []) (hq : q.Inner) :
    (p.join q).endsInName = q.endsInName := by
  obtain ⟨step, hstep⟩ := Option.ne_none_iff_exists'.1 (mt List.getLast?_eq_none_iff.1 hq.steps_ne_nil)
  rw [endsInName, endsInName, hq.steps_join hp, List.getLast?_append, hstep, Option.some_or]

/-- What stands around the last element that a filter keeps. -/
theorem filter_eq_concat {α : Type} {keep : α → Bool} {xs init : List α} {x : α}
    (h : xs.filter keep = init ++ [x]) :
    ∃ front back, xs = front ++ x :: back ∧ front.filter keep = init ∧ keep x = true ∧
      ∀ y ∈ back, keep y = false := by
  obtain ⟨left, right, rfl, rfl, hright⟩ := List.filter_eq_append_iff.1 h
  obtain ⟨between, back, rfl, hbetween, hx, hback⟩ := List.filter_eq_cons_iff.1 hright
  refine ⟨left ++ between, back, by rw [List.append_assoc], ?_, hx, fun y hy => ?_⟩
  · rw [List.filter_append, List.filter_eq_nil_iff.2 hbetween, List.append_nil]
  · exact Bool.eq_false_iff.2 (List.filter_eq_nil_iff.1 hback y hy)

/-- The steps of an inner path: down to the directory that holds its last name, that name, and what
    stands behind it. -/
theorem Inner.steps_eq {q : Path} (hq : q.Inner) :
    ∃ front name back, q.steps = front ++ name :: back ∧
      q.names = front.filter (fun step => !isBlank step) ++ [name] ∧ [dot, dot] ∉ front ∧
      staysHere name = false ∧ goesUp name = false ∧ (∀ step ∈ back, staysHere step = true) ∧
      (q.endsInName = true ↔ back = []) := by
  have hnames : q.names = q.steps.filter fun step => !isBlank step := by
    unfold names steps
    have hfilter : (q.segments.filter (· ≠ [])).filter (fun step => !isBlank step) =
        q.segments.filter fun step => !isBlank step := by
      rw [List.filter_filter]
      refine List.filter_congr fun segment _ => ?_
      by_cases hempty : segment = [] <;> simp [hempty, isBlank]
    split
    · rw [List.filter_append, hfilter]
      exact (List.append_nil _).symm
    · exact hfilter.symm
  have hdown : [dot, dot] ∉ q.steps := by
    intro hmem
    have hfilter : [dot, dot] ∈ q.steps.filter (· ≠ []) := List.mem_filter.2 ⟨hmem, rfl⟩
    rw [filter_steps] at hfilter
    exact hq.descends (List.mem_filter.1 hfilter).1
  rw [← List.dropLast_concat_getLast hq.named] at hnames
  obtain ⟨front, back, hsteps, hinit, hname, hback⟩ := filter_eq_concat hnames.symm
  rw [hsteps, List.mem_append, List.mem_cons, not_or, not_or] at hdown
  have hkept : staysHere (q.names.getLast hq.named) = false := by simpa [isBlank_eq_staysHere] using hname
  have hstays : ∀ step ∈ back, staysHere step = true := by
    intro step hstep
    simpa [isBlank_eq_staysHere] using hback step hstep
  refine ⟨front, _, back, hsteps, ?_, hdown.1, hkept, decide_eq_false (Ne.symm hdown.2.1), ?_, ?_⟩
  · rw [hinit, List.dropLast_concat_getLast]
  · exact hstays
  · rw [endsInName, hsteps]
    constructor
    · intro hends
      refine List.getLast?_eq_none_iff.1 (Option.eq_none_iff_forall_ne_some.2 fun step hstep => ?_)
      rw [List.getLast?_append, List.getLast?_cons, hstep] at hends
      simp [hstays step (List.mem_of_getLast? hstep)] at hends
    · rintro rfl
      rw [List.getLast?_concat, Option.any_some, hkept]
      rfl

end DocBuild.Path
