namespace DocBuild

/-- Where a build stands. -/
inductive Stage where
  | start
  | rootResolved
  | preCleaned
  | built
  | postCleaned
  | done
  | failed
  deriving DecidableEq, Repr

namespace Stage

def name : Stage → String
  | start => "start"
  | rootResolved => "root_resolved"
  | preCleaned => "pre_cleaned"
  | built => "built"
  | postCleaned => "post_cleaned"
  | done => "done"
  | failed => "failed"

/-- The stage that a finished step leads to; none follows a terminal stage. -/
def next? : Stage → Option Stage
  | start => some rootResolved
  | rootResolved => some preCleaned
  | preCleaned => some built
  | built => some postCleaned
  | postCleaned => some done
  | done | failed => none

def isTerminal : Stage → Bool
  | done | failed => true
  | _ => false

theorem isTerminal_iff (s : Stage) : s.isTerminal = true ↔ s.next? = none := by
  cases s <;> decide

/-- How many steps remain until the last stage. -/
def remaining : Stage → Nat
  | start => 5
  | rootResolved => 4
  | preCleaned => 3
  | built => 2
  | postCleaned => 1
  | done | failed => 0

theorem remaining_next {s t : Stage} (h : s.next? = some t) : t.remaining < s.remaining := by
  cases s <;> cases t <;> revert h <;> decide

/-- The stages from `s` to the last one that successful steps reach. -/
def walk (s : Stage) : List Stage :=
  match _h : s.next? with
  | none => [s]
  | some t => s :: walk t
  termination_by s.remaining
  decreasing_by exact remaining_next _h

end Stage
end DocBuild
