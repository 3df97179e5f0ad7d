import DocBuild.Locator
import DocBuild.Proofs.Work.Requests

namespace DocBuild

namespace Locator

variable {c : Context} {s s' : Session} {start : Path} {launch : Launcher}

/-- What a locator asks the launcher for. -/
def request? : Locator → Path → Option Launch
  | given _, _ => none
  | asked program, start => some ⟨program, question, start⟩

theorem ignoresReports_root (l : Locator) (start : Path) : (l.root start).IgnoresReports := by
  cases l with
  | given root =>
    refine Work.ignoresReports_read.bind fun c => Work.ignoresReports_tree.bind fun t => ?_
    split
    · exact Work.ignoresReports_pure _
    · exact Work.ignoresReports_throw _
  | asked program =>
    refine (Work.ignoresReports_report _).bind fun _ => Work.ignoresReports_read.bind fun c =>
      Work.ignoresReports_tree.bind fun t => ?_
    split
    · exact Work.ignoresReports_throw _
    · refine (Work.ignoresReports_setTree _).bind fun _ => ?_
      split
      · split
        · exact Work.ignoresReports_pure _
        · exact Work.ignoresReports_throw _
      · exact Work.ignoresReports_throw _

theorem run_given (root : Path) : ((given root).root start).run c s =
    if s.tree.isDirectoryPath c.directory (start.join root) then .ok (start.join root) s
    else .error (.environment
      s!"repository root {(start.join root).display} is not a directory") s := by
  unfold Locator.root ofUser
  rw [Work.run_bind_of_ok Work.run_read]
  dsimp only
  rw [Work.run_bind_of_ok Work.run_tree]
  split <;> rfl

/-- A given root is taken as it is spelt and must be a directory. -/
theorem run_given_eq_ok {root found : Path} (h : ((given root).root start).run c s = .ok found s') :
    found = start.join root ∧ s' = s ∧ s.tree.isDirectoryPath c.directory found = true := by
  rw [run_given] at h
  split at h
  · next hdirectory =>
    cases h
    exact ⟨rfl, rfl, hdirectory⟩
  · cases h

/-- Looking for a given root changes nothing. -/
theorem leaves_given (root start : Path) : ((given root).root start).leaves c s = s.tree := by
  rw [Work.leaves, run_given]
  cases s.tree.isDirectoryPath c.directory (start.join root) <;> rfl

theorem effect_given_of_directory {root : Path}
    (h : s.tree.isDirectoryPath c.directory (start.join root) = true) :
    ((given root).root start).effect c s = (s.tree, .ok (start.join root)) :=
  Work.effect_of_ok (by rw [run_given, if_pos h])

/-- What becomes of the search when the program has run. -/
def verdict (program : String) (start : Path) (finished : Completion) : Except Failure Path :=
  if finished.ending.success then
    match answer? finished.output with
    | some path => .ok path
    | none => .error (.environment s!"`{program} rev-parse --show-toplevel` printed no path")
  else .error (.environment (s!"not inside a git repository ({start.display}): " ++
    Text.trim (Utf8.lossy finished.errors)))

theorem run_asked {program : String} : ((asked program).root start).run c s =
    let events := s.events ++ [.log ⟨.debug, .repository, "querying repository root",
      [("program", .text program), ("cwd", .text start.display)]⟩]
    match c.launch s.tree ⟨program, question, start⟩ with
    | .error e => .error (.environment
        (s!"failed to run `{program}`: " ++ e.message ++ " (is it installed and on PATH?)"))
        { s with events }
    | .ok finished =>
      match verdict program start finished with
      | .ok path => .ok path { tree := finished.tree, events }
      | .error f => .error f { tree := finished.tree, events } := by
  unfold Locator.root ofProgram verdict
  rw [Work.run_bind_of_ok (Work.run_log _), Work.run_bind_of_ok Work.run_read,
    Work.run_bind_of_ok Work.run_tree]
  dsimp only
  cases c.launch s.tree ⟨program, question, start⟩ with
  | error e => rfl
  | ok finished =>
    dsimp only
    rw [Work.run_bind_of_ok (Work.run_setTree _)]
    cases finished.ending.success with
    | false => rfl
    | true => cases answer? finished.output <;> rfl

/-- A program that cannot be started fails the search. -/
theorem effect_asked_of_launch_error {program : String} {e : LaunchError}
    (h : c.launch s.tree ⟨program, question, start⟩ = .error e) :
    ((asked program).root start).effect c s = (s.tree, .error (.environment
      (s!"failed to run `{program}`: " ++ e.message ++ " (is it installed and on PATH?)"))) := by
  rw [Work.effect, run_asked, h]

theorem effect_asked_of_launch_ok {program : String} {finished : Completion}
    (h : c.launch s.tree ⟨program, question, start⟩ = .ok finished) :
    ((asked program).root start).effect c s = (finished.tree, verdict program start finished) := by
  rw [Work.effect, run_asked, h]
  dsimp only
  cases verdict program start finished <;> rfl

/-- An asked program finds a root when it can be run, succeeds and answers one. -/
theorem effect_asked_eq_ok_iff {program : String} {t : FileTree} {p : Path} :
    ((asked program).root start).effect c s = (t, .ok p) ↔
      ∃ finished, c.launch s.tree ⟨program, question, start⟩ = .ok finished ∧
        finished.ending.success = true ∧ answer? finished.output = some p ∧ finished.tree = t := by
  cases hlaunch : c.launch s.tree ⟨program, question, start⟩ with
  | error e => simp [effect_asked_of_launch_error hlaunch]
  | ok finished =>
    rw [effect_asked_of_launch_ok hlaunch, verdict]
    cases hsuccess : finished.ending.success with
    | false => simp [hsuccess]
    | true => cases hanswer : answer? finished.output <;> simp [hsuccess, hanswer, and_comm]

/-- Launchers that answer its one request alike make a locator find the same. -/
theorem run_root_congr (l : Locator)
    (h : ∀ q, l.request? start = some q → launch s.tree q = c.launch s.tree q) :
    (l.root start).run { c with launch } s = (l.root start).run c s := by
  cases l with
  | given root => rw [run_given, run_given]
  | asked program =>
    rw [run_asked, run_asked]
    dsimp only
    rw [h _ rfl]

end Locator
end DocBuild
