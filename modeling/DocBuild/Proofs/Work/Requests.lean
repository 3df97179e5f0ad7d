import DocBuild.Proofs.Work

namespace DocBuild

/-- The request for a launch on a tree, as opposed to all others. -/
def Launch.on (l : Launch) (t : FileTree) : FileTree → Launch → Prop :=
  fun t' l' => t' = t ∧ l' = l

open Classical in
/-- The launcher that refuses one request and answers the others as before. -/
noncomputable def Launcher.refusing (launch : Launcher) (t : FileTree) (l : Launch)
    (e : LaunchError) : Launcher :=
  fun t' l' => if t' = t ∧ l' = l then .error e else launch t' l'

namespace Launcher

variable {launch : Launcher} {t t' : FileTree} {l l' : Launch} {e : LaunchError}

theorem refusing_self : launch.refusing t l e t l = .error e :=
  if_pos ⟨rfl, rfl⟩

theorem refusing_of_not_on (h : ¬ l.on t t' l') : launch.refusing t l e t' l' = launch t' l' :=
  if_neg h

theorem refusing_of_ne (h : l' ≠ l) : launch.refusing t l e t' l' = launch t' l' :=
  refusing_of_not_on fun hon => h hon.2

end Launcher

namespace Work

variable {α β : Type} {c : Context} {s s' : Session} {f : Failure} {t : FileTree}
  {work x : Work α} {g : α → Work β} {a : α}

/-- What a command comes to: the tree it leaves, and its result. -/
def effect (work : Work α) (c : Context) (s : Session) : FileTree × Except Failure α :=
  match work.run c s with
  | .ok a s' => (s'.tree, .ok a)
  | .error f s' => (s'.tree, .error f)

theorem effect_of_ok (h : work.run c s = .ok a s') : work.effect c s = (s'.tree, .ok a) := by
  rw [effect, h]

theorem effect_of_error (h : work.run c s = .error f s') :
    work.effect c s = (s'.tree, .error f) := by
  rw [effect, h]

theorem effect_congr {other : Work α} {c' : Context} (h : work.run c s = other.run c' s') :
    work.effect c s = other.effect c' s' := by
  rw [effect, h, effect]

theorem effect_eq_ok_iff :
    work.effect c s = (t, .ok a) ↔ ∃ s', work.run c s = .ok a s' ∧ s'.tree = t := by
  cases hrun : work.run c s with
  | ok b after => simp [effect_of_ok hrun, and_comm, eq_comm]
  | error f after => simp [effect_of_error hrun]

theorem effect_eq_error_iff :
    work.effect c s = (t, .error f) ↔ ∃ s', work.run c s = .error f s' ∧ s'.tree = t := by
  cases hrun : work.run c s with
  | ok b after => simp [effect_of_ok hrun]
  | error f after => simp [effect_of_error hrun, and_comm, eq_comm]

/-- Work with a known result leaves some tree. -/
theorem exists_effect_eq {result : Except Failure α} (h : (work.effect c s).2 = result) :
    ∃ t, work.effect c s = (t, result) :=
  ⟨(work.effect c s).1, by rw [← h]⟩

theorem effect_bind_of_ok (h : x.run c s = .ok a s') :
    (x >>= g).effect c s = (g a).effect c s' := by
  rw [effect, run_bind_of_ok h, effect]

theorem effect_bind_of_error (h : x.run c s = .error f s') :
    (x >>= g).effect c s = (s'.tree, .error f) :=
  effect_of_error (run_bind_of_error h)

/-- Work that does not look at what has been reported: it comes to the same on the same tree. -/
def IgnoresReports (work : Work α) : Prop :=
  ∀ c s s', s.tree = s'.tree → work.effect c s = work.effect c s'

theorem IgnoresReports.bind (hx : x.IgnoresReports) (hg : ∀ a, (g a).IgnoresReports) :
    (x >>= g).IgnoresReports := by
  intro c s s' htree
  have hsame := hx c s s' htree
  cases hrun : x.run c s with
  | error f after =>
    rw [effect_of_error hrun] at hsame
    obtain ⟨after', hrun', hafter⟩ := effect_eq_error_iff.1 hsame.symm
    rw [effect_bind_of_error hrun, effect_bind_of_error hrun', hafter]
  | ok a after =>
    rw [effect_of_ok hrun] at hsame
    obtain ⟨after', hrun', hafter⟩ := effect_eq_ok_iff.1 hsame.symm
    rw [effect_bind_of_ok hrun, effect_bind_of_ok hrun']
    exact hg a c after after' hafter.symm

/-- A sequence comes to what its second part makes of what the first has come to. -/
theorem effect_bind (hg : ∀ a, (g a).IgnoresReports) :
    (x >>= g).effect c s =
      match x.effect c s with
      | (t, .ok a) => (g a).effect c { tree := t }
      | (t, .error f) => (t, .error f) := by
  cases hrun : x.run c s with
  | error f after => rw [effect_bind_of_error hrun, effect_of_error hrun]
  | ok a after =>
    rw [effect_bind_of_ok hrun, effect_of_ok hrun]
    exact hg a c after { tree := after.tree } rfl

/-- A result that is only presented differently. -/
theorem run_then_return (g : α → β) :
    (do return g (← x) : Work β).run c s =
      match x.run c s with
      | .ok a s' => .ok (g a) s'
      | .error f s' => .error f s' := by
  cases hrun : x.run c s with
  | error f after => rw [run_bind_of_error hrun]
  | ok a after => rw [run_bind_of_ok hrun, run_pure]

theorem effect_then_return (g : α → β) :
    (do return g (← x) : Work β).effect c s = (x.effect c s).map id (Except.map g) := by
  rw [effect, effect, run_then_return]
  cases x.run c s <;> rfl

/-- A report at the end is no effect. -/
theorem effect_then_log (r : α → LogRecord) (g : α → β) :
    (do let a ← x
        log (r a)
        return g a : Work β).effect c s = (x.effect c s).map id (Except.map g) := by
  cases hrun : x.run c s with
  | error f after => rw [effect_bind_of_error hrun, effect_of_error hrun]; rfl
  | ok a after => rw [effect_bind_of_ok hrun, effect_of_ok hrun]; rfl

theorem ignoresReports_pure (a : α) : (pure a : Work α).IgnoresReports := by
  intro c s s' htree
  rw [effect_of_ok (run_pure a), effect_of_ok (run_pure a), htree]

theorem ignoresReports_throw (f : Failure) : (throw f : Work α).IgnoresReports := by
  intro c s s' htree
  rw [effect_of_error (run_throw f), effect_of_error (run_throw f), htree]

theorem ignoresReports_read : (read : Work Context).IgnoresReports := by
  intro c s s' htree
  rw [effect_of_ok run_read, effect_of_ok run_read, htree]

theorem ignoresReports_tree : tree.IgnoresReports := by
  intro c s s' htree
  rw [effect_of_ok run_tree, effect_of_ok run_tree, htree]

theorem ignoresReports_setTree (t : FileTree) : (setTree t).IgnoresReports := by
  intro c s s' _
  rw [effect_of_ok (run_setTree t), effect_of_ok (run_setTree t)]

theorem ignoresReports_report (e : Event) : (report e).IgnoresReports := by
  intro c s s' htree
  rw [effect_of_ok (run_report e), effect_of_ok (run_report e)]
  exact congrArg (·, _) htree

theorem ignoresReports_ofExcept (r : Except Failure α) : (ofExcept r).IgnoresReports := by
  cases r with
  | error f => exact ignoresReports_throw f
  | ok a => exact ignoresReports_pure a

theorem effect_onTree {p : Path} (operation : FileTree → FileTree × Except FileError α) :
    (onTree p operation).effect c s =
      match operation s.tree with
      | (t, .ok a) => (t, .ok a)
      | (t, .error e) => (t, .error (.file p e)) := by
  rw [effect, run_onTree]
  rcases operation s.tree with ⟨t, e | a⟩ <;> rfl

theorem ignoresReports_onTree {p : Path}
    (operation : FileTree → FileTree × Except FileError α) :
    (onTree p operation).IgnoresReports := by
  intro c s s' htree
  rw [effect_onTree, effect_onTree, htree]

/-- The course of the work depends on how requests of a kind are answered: with other answers to
    these, and the same to all others, the run is another. -/
def Requests (work : Work α) (c : Context) (s : Session) (kind : FileTree → Launch → Prop) : Prop :=
  ∃ launch : Launcher, (∀ t l, ¬ kind t l → launch t l = c.launch t l) ∧
    work.run { c with launch } s ≠ work.run c s

/-- Work that tells of a refusal in its failure has made the request: two refusals read differently, so
    one run cannot tell of both. -/
theorem requests_of_refusals {kind : FileTree → Launch → Prop} {l : Launch}
    {beginning ending : String} (hkind : kind t l)
    (h : ∀ e, ∃ left, work.effect { c with launch := c.launch.refusing t l e } s =
      (left, .error (.environment (beginning ++ e.message ++ ending)))) :
    work.Requests c s kind := by
  refine Classical.byContradiction fun hnone => ?_
  have hsame (e : LaunchError) :
      work.effect { c with launch := c.launch.refusing t l e } s = work.effect c s := by
    refine effect_congr (Classical.byContradiction fun hother => ?_)
    refine hnone ⟨_, fun t' l' hout => Launcher.refusing_of_not_on ?_, hother⟩
    rintro ⟨rfl, rfl⟩
    exact hout hkind
  obtain ⟨left, hzero⟩ := h .zeroByte
  obtain ⟨left', hmissing⟩ := h (.system .noEntry)
  rw [hsame] at hzero hmissing
  rw [hzero] at hmissing
  have htext := congrArg String.toList (Failure.environment.inj (Except.error.inj (Prod.mk.inj hmissing).2))
  simp only [String.toList_append, List.append_cancel_left_eq, List.append_cancel_right_eq] at htext
  exact absurd htext (by decide)

section

variable {kind : FileTree → Launch → Prop}

/-- After a part that no launcher has a say in, the requests are those of the rest. -/
theorem requests_bind_of_ok
    (hsame : ∀ launch : Launcher, x.run { c with launch } s = x.run c s)
    (h : x.run c s = .ok a s') :
    (x >>= g).Requests c s kind ↔ (g a).Requests c s' kind := by
  refine exists_congr fun launch => and_congr_right fun _ => ?_
  rw [run_bind_of_ok h, run_bind_of_ok ((hsame launch).trans h)]

theorem not_requests_bind_of_error
    (hsame : ∀ launch : Launcher, x.run { c with launch } s = x.run c s)
    (h : x.run c s = .error f s') : ¬ (x >>= g).Requests c s kind := by
  rintro ⟨launch, -, hother⟩
  rw [run_bind_of_error h, run_bind_of_error ((hsame launch).trans h)] at hother
  exact hother rfl

/-- Presenting a result differently makes no request and hides none. -/
theorem requests_then_return {present : α → β} (hpresent : ∀ a b, present a = present b → a = b) :
    (do return present (← x) : Work β).Requests c s kind ↔ x.Requests c s kind := by
  refine exists_congr fun launch => and_congr_right fun _ => not_congr ?_
  rw [run_then_return, run_then_return]
  cases x.run c s with
  | error f after => cases x.run { c with launch } s <;> simp
  | ok a after =>
    cases x.run { c with launch } s with
    | error f' after' => simp
    | ok a' after' =>
      simp only [EStateM.Result.ok.injEq]
      exact and_congr_left fun _ => ⟨hpresent _ _, congrArg present⟩

end

end Work
end DocBuild
