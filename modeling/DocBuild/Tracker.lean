import DocBuild.Work

namespace DocBuild

/-- Where a build stands, and the stages it has walked through to get there. -/
structure Tracker where
  current : Stage := .start
  walked : List Stage := [.start]
  deriving DecidableEq, Repr

/-- The tracker after one stage more. -/
def Tracker.enter (k : Tracker) (stage : Stage) : Tracker where
  current := stage
  walked := k.walked ++ [stage]

/-- Work in the course of a build, which moves a tracker. Where the work fails, the tracker stands
    where it stood. -/
abbrev Tracked := ReaderT Context (EStateM Failure (Session × Tracker))

namespace Tracked

def run {α : Type} (work : Tracked α) (c : Context) (p : Session × Tracker) :
    EStateM.Result Failure (Session × Tracker) α :=
  ReaderT.run work c p

/-- Work that does not move the tracker. -/
def ofWork {α : Type} (work : Work α) : Tracked α := fun c p =>
  match work.run c p.1 with
  | .ok a s => .ok a (s, p.2)
  | .error f s => .error f (s, p.2)

def tracker : Tracked Tracker := do
  return (← get).2

/-- Moves the tracker to a stage and reports it. -/
def enter (stage : Stage) : Tracked Unit := do
  modify fun p : Session × Tracker => (p.1, p.2.enter stage)
  ofWork (Work.report (.stage stage))

instance : MonadLift Work Tracked where
  monadLift := ofWork

/-- Moves on to the next stage, if there is one. -/
def advance : Tracked Unit := do
  match (← tracker).current.next? with
  | some stage => enter stage
  | none => return ()

/-- Ends in failure what has not ended yet. -/
def fail : Tracked Unit := do
  unless (← tracker).current.isTerminal do enter .failed

/-- The work as it is seen where there is no tracker. -/
def untracked {α : Type} (work : Tracked α) : Work α := fun c s =>
  match work.run c (s, {}) with
  | .ok a p => .ok a p.1
  | .error f p => .error f p.1

/-- Begins in the first stage, which is reported too. -/
def track {α : Type} (work : Tracked α) : Work α := do
  Work.report (.stage .start)
  untracked work

end Tracked
end DocBuild
