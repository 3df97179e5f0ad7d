import DocBuild.Locator
import DocBuild.Proofs.Work

namespace DocBuild

namespace Event

/-- A log record, which no one who follows the course of a command sees. -/
def isRecord : Event → Bool
  | .log _ => true
  | _ => false

/-- What a command tells about its own course, as opposed to records and the words of programs. -/
def isCallback : Event → Bool
  | .stage _ | .phase _ | .builder _ | .done _ => true
  | .log _ | .output _ | .errors _ => false

end Event

namespace Work

variable {α β : Type} {c : Context} {s s' : Session} {f : Failure} {p q : Event → Bool}

/-- The session at the end of a command, whether it succeeds or fails. -/
def ends (work : Work α) (c : Context) (s : Session) : Session :=
  match work.run c s with
  | .ok _ s' | .error _ s' => s'

theorem ends_of_ok {work : Work α} {a : α} (h : work.run c s = .ok a s') : work.ends c s = s' := by
  rw [ends, h]

theorem ends_of_error {work : Work α} (h : work.run c s = .error f s') : work.ends c s = s' := by
  rw [ends, h]

theorem ends_bind_of_ok {x : Work α} {g : α → Work β} {a : α} (h : x.run c s = .ok a s') :
    (x >>= g).ends c s = (g a).ends c s' := by
  simp only [ends, run_bind_of_ok h]

theorem ends_bind_of_error {x : Work α} {g : α → Work β} (h : x.run c s = .error f s') :
    (x >>= g).ends c s = s' :=
  ends_of_error (run_bind_of_error h)

theorem ends_then_return (g : α → β) (x : Work α) :
    (do return g (← x) : Work β).ends c s = x.ends c s := by
  cases hrun : x.run c s with
  | ok a s' => rw [ends_bind_of_ok hrun, ends_of_ok hrun]; rfl
  | error f s' => rw [ends_bind_of_error hrun, ends_of_error hrun]

/-- Work that reports only events of a kind. -/
def ReportsOnly (p : Event → Bool) (work : Work α) : Prop :=
  ∀ c s, ∃ new : List Event, (work.ends c s).events = s.events ++ new ∧ new.all p = true

theorem ReportsOnly.mono {work : Work α} (h : work.ReportsOnly p)
    (hp : ∀ e, p e = true → q e = true) : work.ReportsOnly q := by
  intro c s
  obtain ⟨new, hnew, hall⟩ := h c s
  exact ⟨new, hnew, List.all_eq_true.2 fun e he => hp e (List.all_eq_true.1 hall e he)⟩

theorem ReportsOnly.of_ok {work : Work α} {a : α} (h : work.ReportsOnly p)
    (hrun : work.run c s = .ok a s') :
    ∃ new : List Event, s'.events = s.events ++ new ∧ new.all p = true := by
  rw [← ends_of_ok hrun]
  exact h c s

theorem ReportsOnly.of_error {work : Work α} (h : work.ReportsOnly p)
    (hrun : work.run c s = .error f s') :
    ∃ new : List Event, s'.events = s.events ++ new ∧ new.all p = true := by
  rw [← ends_of_error hrun]
  exact h c s

theorem ReportsOnly.bind {x : Work α} {g : α → Work β} (hx : x.ReportsOnly p)
    (hg : ∀ a, (g a).ReportsOnly p) : (x >>= g).ReportsOnly p := by
  intro c s
  cases hrun : x.run c s with
  | error f s' =>
    rw [ends_bind_of_error hrun]
    exact hx.of_error hrun
  | ok a s' =>
    obtain ⟨new, hnew, hall⟩ := hx.of_ok hrun
    obtain ⟨more, hmore, hall'⟩ := hg a c s'
    refine ⟨new ++ more, ?_, by rw [List.all_append, hall, hall']; rfl⟩
    rw [ends_bind_of_ok hrun, hmore, hnew, List.append_assoc]

/-- Work that reports nothing reports only events of any kind. -/
theorem reportsOnly_of_events {work : Work α} (h : ∀ c s, (work.ends c s).events = s.events) :
    work.ReportsOnly p :=
  fun c s => ⟨[], by rw [h, List.append_nil], rfl⟩

theorem reportsOnly_pure (a : α) : (pure a : Work α).ReportsOnly p :=
  reportsOnly_of_events fun _ _ => rfl

theorem reportsOnly_throw (f : Failure) : (throw f : Work α).ReportsOnly p :=
  reportsOnly_of_events fun _ _ => rfl

theorem reportsOnly_read : (read : Work Context).ReportsOnly p :=
  reportsOnly_of_events fun _ _ => rfl

theorem reportsOnly_tree : tree.ReportsOnly p :=
  reportsOnly_of_events fun _ _ => rfl

theorem reportsOnly_setTree (t : FileTree) : (setTree t).ReportsOnly p :=
  reportsOnly_of_events fun _ _ => rfl

theorem reportsOnly_ofExcept (x : Except Failure α) : (ofExcept x).ReportsOnly p := by
  cases x with
  | error f => exact reportsOnly_throw f
  | ok a => exact reportsOnly_pure a

theorem reportsOnly_onTree {path : Path} (operation : FileTree → FileTree × Except FileError α) :
    (onTree path operation).ReportsOnly p := by
  refine reportsOnly_of_events fun c s => ?_
  rw [ends, run_onTree]
  rcases operation s.tree with ⟨t, e | a⟩ <;> rfl

theorem reportsOnly_report {e : Event} (h : p e = true) : (report e).ReportsOnly p :=
  fun _ _ => ⟨[e], rfl, by rw [List.all_cons, h]; rfl⟩

theorem reportsOnly_log (r : LogRecord) : (log r).ReportsOnly Event.isRecord :=
  reportsOnly_report rfl

end Work

/-- Finding the root of the repository reports nothing but records. -/
theorem Locator.reportsOnly_root (l : Locator) (start : Path) :
    (l.root start).ReportsOnly Event.isRecord := by
  cases l with
  | given root =>
    refine Work.reportsOnly_read.bind fun c => Work.reportsOnly_tree.bind fun t => ?_
    split
    · exact Work.reportsOnly_pure _
    · exact Work.reportsOnly_throw _
  | asked program =>
    refine (Work.reportsOnly_log _).bind fun _ => Work.reportsOnly_read.bind fun c =>
      Work.reportsOnly_tree.bind fun t => ?_
    split
    · exact Work.reportsOnly_throw _
    · refine (Work.reportsOnly_setTree _).bind fun _ => ?_
      split
      · split
        · exact Work.reportsOnly_pure _
        · exact Work.reportsOnly_throw _
      · exact Work.reportsOnly_throw _

end DocBuild
