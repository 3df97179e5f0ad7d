import DocBuild.Work

namespace DocBuild.Work

variable {α β : Type} {c : Context} {s s' : Session} {f : Failure}

/-- The tree that a command leaves, whether it succeeds or fails. -/
def leaves (work : Work α) (c : Context) (s : Session) : FileTree :=
  match work.run c s with
  | .ok _ s' | .error _ s' => s'.tree

theorem leaves_of_ok {work : Work α} {a : α} (h : work.run c s = .ok a s') :
    work.leaves c s = s'.tree := by
  rw [leaves, h]

theorem leaves_of_error {work : Work α} (h : work.run c s = .error f s') :
    work.leaves c s = s'.tree := by
  rw [leaves, h]

section

variable {σ : Type} {x : ReaderT Context (EStateM Failure σ) α} {p p' : σ}

theorem bind_of_ok {g : α → ReaderT Context (EStateM Failure σ) β} {a : α} (h : x c p = .ok a p') :
    (x >>= g) c p = g a c p' := by
  simp only [bind, ReaderT.bind, EStateM.bind, h]

theorem bind_of_error {g : α → ReaderT Context (EStateM Failure σ) β} (h : x c p = .error f p') :
    (x >>= g) c p = .error f p' := by
  simp only [bind, ReaderT.bind, EStateM.bind, h]

end

theorem run_bind_of_ok {x : Work α} {g : α → Work β} {a : α} (h : x.run c s = .ok a s') :
    (x >>= g).run c s = (g a).run c s' :=
  bind_of_ok h

theorem run_bind_of_error {x : Work α} {g : α → Work β} (h : x.run c s = .error f s') :
    (x >>= g).run c s = .error f s' :=
  bind_of_error h

/-- A sequence succeeds when its parts do, each where the one before has left off. -/
theorem run_bind_eq_ok_iff {x : Work α} {g : α → Work β} {b : β} :
    (x >>= g).run c s = .ok b s' ↔
      ∃ a between, x.run c s = .ok a between ∧ (g a).run c between = .ok b s' := by
  cases hx : x.run c s with
  | ok a between => simp [run_bind_of_ok hx, and_assoc]
  | error f between => simp [run_bind_of_error hx]

theorem run_bind_eq_error_iff {x : Work α} {g : α → Work β} :
    (x >>= g).run c s = .error f s' ↔
      x.run c s = .error f s' ∨
        ∃ a between, x.run c s = .ok a between ∧ (g a).run c between = .error f s' := by
  cases hx : x.run c s with
  | ok a between => simp [run_bind_of_ok hx, and_assoc]
  | error f between => simp [run_bind_of_error hx]

@[simp] theorem run_pure (a : α) : (pure a : Work α).run c s = .ok a s := rfl

@[simp] theorem run_throw (f : Failure) : (throw f : Work α).run c s = .error f s := rfl

@[simp] theorem run_read : (read : Work Context).run c s = .ok c s := rfl

@[simp] theorem run_tree : tree.run c s = .ok s.tree s := rfl

@[simp] theorem run_setTree (t : FileTree) : (setTree t).run c s = .ok () { s with tree := t } := rfl

@[simp] theorem run_report (e : Event) :
    (report e).run c s = .ok () { s with events := s.events ++ [e] } := rfl

@[simp] theorem run_log (r : LogRecord) :
    (log r).run c s = .ok () { s with events := s.events ++ [.log r] } := rfl

/-- Reports come and go without the tree. -/
theorem run_report_bind_eq_ok {e : Event} {g : Unit → Work α} {a : α}
    (h : (report e >>= g).run c s = .ok a s') :
    ∃ ready, ready.tree = s.tree ∧ (g ()).run c ready = .ok a s' := by
  rw [run_bind_of_ok (run_report e)] at h
  exact ⟨{ s with events := s.events ++ [e] }, rfl, h⟩

theorem run_log_bind_eq_ok {r : LogRecord} {g : Unit → Work α} {a : α}
    (h : (log r >>= g).run c s = .ok a s') :
    ∃ ready, ready.tree = s.tree ∧ (g ()).run c ready = .ok a s' :=
  run_report_bind_eq_ok h

theorem run_ofExcept_eq_ok_iff {x : Except Failure α} {a : α} :
    (ofExcept x).run c s = .ok a s' ↔ x = .ok a ∧ s' = s := by
  cases x with
  | error f => simp [ofExcept]
  | ok b => simp [ofExcept, eq_comm]

/-- An operation on the tree, run on the tree of the session. -/
theorem run_onTree {p : Path} {operation : FileTree → FileTree × Except FileError α} :
    (onTree p operation).run c s =
      match operation s.tree with
      | (t, .ok a) => .ok a { s with tree := t }
      | (t, .error e) => .error (.file p e) { s with tree := t } := by
  unfold onTree
  rw [run_bind_of_ok run_tree]
  rcases operation s.tree with ⟨t, result⟩
  dsimp only
  rw [run_bind_of_ok (run_setTree t)]
  cases result <;> rfl

end DocBuild.Work
