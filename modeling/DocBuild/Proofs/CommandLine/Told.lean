import DocBuild.Proofs.CommandLine.Ending
import DocBuild.Proofs.CommandLine.Marks

namespace DocBuild.CommandLine

variable {v : Variables} {r : Request} {c : Context} {t : FileTree} {s : Settings} {site : Site}
  {finished : Completion} {f : Failure} {elapsed : Nat}

/-- The text that the program itself prints on a stream. Log records and the words of the programs it
    runs are no part of it. -/
def Outcome.text (o : Outcome) (stream : Stream) (v : Variables) (elapsed : Nat) : String :=
  String.join ((o.notices.filter (·.stream = stream)).map (·.text v elapsed))

/-- How many lines of that text begin with a mark. -/
def Outcome.marks (o : Outcome) (stream : Stream) (v : Variables) (elapsed : Nat) (m : Mark) : Nat :=
  m.count (o.text stream v elapsed)

/-- The command of the builder that a request announces has no line, but perhaps the first, that begins
    with a mark. -/
def Request.AnnouncesPlainly (r : Request) (v : Variables) (c : Context) (t : FileTree) : Prop :=
  ∀ s site swept, r.Prepares v c t s site swept →
    Unmarked (s.builder.command site.sources site.output).line

theorem Notice.join_text (notices : List Notice) :
    String.join (notices.map (·.text v elapsed)) =
      String.join ((notices.flatMap (·.lines v elapsed)).map (· ++ "\n")) := by
  induction notices with
  | nil => rfl
  | cons n notices ih =>
    rw [List.map_cons, String.join_cons, ih, List.flatMap_cons, List.map_append, String.join_append,
      Notice.text]

/-- What the program prints itself, before it tells of the end, are the builders it announces. -/
theorem Request.text_outcome (r : Request) (v : Variables) (c : Context) (t : FileTree)
    (stream : Stream) (elapsed : Nat) :
    let last := Outcome.last ((r.perform v).run c { tree := t })
    ∃ pieces : List String,
      (r.outcome v c t).text stream v elapsed = String.join (pieces.map (· ++ "\n")) ++
        (if last.stream = stream then last.text v elapsed else "") ∧
      ∀ piece ∈ pieces, stream = .errors ∧
        ∃ line, .builder line ∈ ((r.perform v).ends c { tree := t }).events ∧ piece = "  → " ++ line := by
  intro last
  have hnotices : (r.outcome v c t).notices = _ ++ [last] := r.notices_outcome v c t
  refine ⟨((((((r.perform v).ends c { tree := t }).events.flatMap Notice.ofEvent).filter
    (·.passes (r.logFilter v))).filter (·.stream = stream)).flatMap (·.lines v elapsed)), ?_, ?_⟩
  · rw [Outcome.text, hnotices, List.filter_append, List.map_append, String.join_append,
      Notice.join_text]
    by_cases hstream : last.stream = stream <;> simp [hstream]
  · intro piece hpiece
    obtain ⟨n, hn, hpiece⟩ := List.mem_flatMap.1 hpiece
    obtain ⟨hn, hstream⟩ := List.mem_filter.1 hn
    obtain ⟨e, he, hn⟩ := List.mem_flatMap.1 (List.mem_of_mem_filter hn)
    cases e with
    | builder line =>
      obtain rfl := List.mem_singleton.1 hn
      obtain rfl := List.mem_singleton.1 hpiece
      exact ⟨(of_decide_eq_true hstream).symm, line, he, rfl⟩
    | stage | output | errors | log =>
      obtain rfl := List.mem_singleton.1 hn
      cases hpiece
    | phase | done => cases hn

section

variable {n : Notice} (hlast : Outcome.last ((r.perform v).run c { tree := t }) = n)
include hlast

/-- The end of a run is told last. -/
theorem Request.exists_text_outcome (elapsed : Nat) :
    ∃ announced : List String, (r.outcome v c t).text n.stream v elapsed =
      String.join (announced.map (· ++ "\n")) ++ n.text v elapsed := by
  subst hlast
  obtain ⟨pieces, htext, -⟩ := r.text_outcome v c t (Outcome.last _).stream elapsed
  exact ⟨pieces, htext.trans (by rw [if_pos rfl])⟩

theorem Request.marks_outcome_ge (elapsed : Nat) (m : Mark) :
    m.count (n.text v elapsed) ≤ (r.outcome v c t).marks n.stream v elapsed m := by
  subst hlast
  obtain ⟨pieces, htext, -⟩ := r.text_outcome v c t (Outcome.last _).stream elapsed
  rw [Outcome.marks, htext, if_pos rfl, Mark.count_join_append]
  omega

/-- The output tells of nothing but the end. -/
theorem Request.text_output (hstream : n.stream ≠ .output) (elapsed : Nat) :
    (r.outcome v c t).text .output v elapsed = "" := by
  subst hlast
  obtain ⟨pieces, htext, hpieces⟩ := r.text_outcome v c t .output elapsed
  obtain rfl : pieces = [] :=
    List.eq_nil_iff_forall_not_mem.2 fun piece hpiece => by cases (hpieces piece hpiece).1
  rw [htext, if_neg hstream]
  rfl

/-- Where the announced command is plain, all marks are those of the end. -/
theorem Request.marks_errors (hbuild : r.action = .build) (hplain : r.AnnouncesPlainly v c t)
    (elapsed : Nat) (m : Mark) : (r.outcome v c t).marks .errors v elapsed m =
      if n.stream = .errors then m.count (n.text v elapsed) else 0 := by
  subst hlast
  obtain ⟨pieces, htext, hpieces⟩ := r.text_outcome v c t .errors elapsed
  have hquiet : m.count (String.join (pieces.map (· ++ "\n"))) = 0 := by
    refine Mark.count_join_eq_zero fun piece hpiece => ?_
    obtain ⟨-, line, hline, rfl⟩ := hpieces piece hpiece
    obtain ⟨s, site, swept, hprepares, rfl⟩ := r.prepares_of_announced hbuild hline
    exact m.count_starting (hplain s site swept hprepares)
  rw [Outcome.marks, htext, Mark.count_join_append, hquiet, Nat.zero_add]
  split
  · rfl
  · exact m.count_empty

end

theorem Request.Succeeds.not_builderFails (h : r.Succeeds v c t) : ¬ r.BuilderFails v c t := by
  rintro ⟨s', site', finished', hruns', hending'⟩
  obtain ⟨s, site, finished, hruns, hending, -⟩ := h
  obtain ⟨-, -, rfl⟩ := hruns.unique hruns'
  exact hending' hending

/-- Without a run of the builder there is neither success nor a failed builder. -/
theorem Request.unended_of_never (hnever : ∀ s site finished, ¬ r.Runs v c t s site finished) :
    ¬ r.Succeeds v c t ∧ ¬ r.BuilderFails v c t := by
  constructor
  · rintro ⟨s, site, finished, hruns, -⟩
    exact hnever s site finished hruns
  · rintro ⟨s, site, finished, hruns, -⟩
    exact hnever s site finished hruns

namespace Request.Runs

variable (hruns : r.Runs v c t s site finished) (hbuilder : ¬ r.BuilderFails v c t)
include hruns hbuilder

theorem ending_eq : finished.ending = .exited 0 :=
  Decidable.byContradiction fun hending => hbuilder ⟨s, site, finished, hruns, hending⟩

theorem code_eq_zero {code : Nat} (hending : finished.ending = .exited code) : code = 0 := by
  rw [hruns.ending_eq hbuilder] at hending
  exact (Ending.exited.inj hending).symm

theorem not_killed {signal : Nat} : finished.ending ≠ .killed signal := by
  rw [hruns.ending_eq hbuilder]
  exact nofun

end Request.Runs

/-- The report of a failure: its message and, where a file operation has failed, that of the system. -/
def errorReport (f : Failure) : String :=
  match f with
  | .file _ e => "Error: \n" ++ ("   0: " ++ Notice.indented f.message ++ "\n" ++
      ("   1: " ++ Notice.indented e.message ++ "\n"))
  | f => "Error: \n" ++ ("   0: " ++ Notice.indented f.message ++ "\n")

/-- The report of a working directory that is gone. -/
def lossReport : String :=
  "Error: \n   0: cannot determine working directory: No such file or directory (os error 2)\n"

theorem Notice.text_failed (f : Failure) : (Notice.failed f).text v elapsed = errorReport f := by
  have hmark : "Error: " ++ "\n" = "Error: \n" := by rfl
  have hzero (message : String) : causeLine 0 message = "   0: " ++ indented message := by rfl
  have hone (message : String) : causeLine 1 message = "   1: " ++ indented message := by rfl
  cases f <;>
    simp only [Notice.text, Notice.lines, report, Failure.causes, errorReport, List.mapIdx_cons,
      List.mapIdx_nil, List.map_cons, List.map_nil, String.join_cons, String.join_nil,
      String.append_empty, Nat.zero_add, hmark, hzero, hone]

theorem Notice.text_lost : (Notice.lost .noEntry).text v elapsed = lossReport := by
  simp only [Notice.text, Notice.lines]
  decide +kernel

/-- How the end of a build is told, by its exit status and by what the program prints itself. -/
structure Told (r : Request) (v : Variables) (c : Context) (t : FileTree) (elapsed : Nat)
    (o : Outcome) : Prop where
  succeeded : o.status = 0 ↔ r.Succeeds v c t
  /-- The status of a builder that exits with another status than 0 is passed on, -/
  exited (s : Settings) (site : Site) (finished : Completion) (code : Nat)
    (hruns : r.Runs v c t s site finished) (hending : finished.ending = .exited code)
    (hfails : code ≠ 0) (hfits : code ≤ 255) : o.status = code
  /-- and a signal that kills it counts as a shell counts it. -/
  killed (s : Settings) (site : Site) (finished : Completion) (signal : Nat)
    (hruns : r.Runs v c t s site finished) (hending : finished.ending = .killed signal)
    (hleast : 1 ≤ signal) (hmost : signal ≤ 64) : o.status = 128 + signal
  otherwise (hfailed : ¬ r.Succeeds v c t) (hbuilder : ¬ r.BuilderFails v c t) : o.status = 1
  success_marked : 0 < o.marks .output v elapsed .success ↔ o.status = 0
  failure_shown (hbuilder : r.BuilderFails v c t) : 0 < o.marks .errors v elapsed .failure
  report_shown (hfailed : o.status ≠ 0) (hbuilder : ¬ r.BuilderFails v c t) :
    0 < o.marks .errors v elapsed .report
  /-- The announced command is printed as it is. Unless its further lines pass for marks, -/
  failure_marked (hplain : r.AnnouncesPlainly v c t) :
    0 < o.marks .errors v elapsed .failure ↔ r.BuilderFails v c t
  failure_once (hplain : r.AnnouncesPlainly v c t) (hbuilder : r.BuilderFails v c t) :
    o.marks .errors v elapsed .failure = 1 ∧ o.marks .errors v elapsed .report = 0
  /-- the marks on the error stream are those of the end. -/
  reported (hplain : r.AnnouncesPlainly v c t) :
    0 < o.marks .errors v elapsed .report ↔ o.status ≠ 0 ∧ ¬ r.BuilderFails v c t
  /-- Behind what is announced, the report gives the causes of the failure. -/
  causes (hfailed : o.status ≠ 0) (hbuilder : ¬ r.BuilderFails v c t) :
    ∃ (announced : List String) (report : String),
      o.text .errors v elapsed = String.join (announced.map (· ++ "\n")) ++ report ∧
      ((∃ f left, (r.perform v).effect c { tree := t } = (left, .error f) ∧ report = errorReport f) ∨
        (t.isDirectory c.directory = false ∧ report = lossReport))

section

variable {session : Session}

theorem Request.told_of_success {report : BuildReport} {format : String} (hbuild : r.action = .build)
    (hrun : (r.perform v).run c { tree := t } = .ok (.ok (.built report format)) session)
    (hsuccess : r.Succeeds v c t) : Told r v c t elapsed (r.outcome v c t) := by
  have hstatus : (r.outcome v c t).status = 0 := by simp only [outcome, hrun, Outcome.statusOf]
  have hlast : Outcome.last ((r.perform v).run c { tree := t }) = .summary (.built report format) := by
    rw [hrun]
    rfl
  have hshown : 0 < (r.outcome v c t).marks .output v elapsed .success :=
    Nat.lt_of_lt_of_le (Mark.count_built_pos report format) (r.marks_outcome_ge hlast elapsed .success)
  have hquiet (hplain : r.AnnouncesPlainly v c t) (m : Mark) :
      (r.outcome v c t).marks .errors v elapsed m = 0 :=
    (r.marks_errors hlast hbuild hplain elapsed m).trans (if_neg (show Stream.output ≠ .errors by decide))
  have hbuilder := hsuccess.not_builderFails
  constructor
  case succeeded => exact iff_of_true hstatus hsuccess
  case exited =>
    intro s site finished code hruns hending hfails
    exact absurd (hruns.code_eq_zero hbuilder hending) hfails
  case killed =>
    intro s site finished signal hruns hending
    exact absurd hending (hruns.not_killed hbuilder)
  case otherwise => exact fun hfailed => absurd hsuccess hfailed
  case success_marked => exact iff_of_true hshown hstatus
  case failure_shown => exact fun h => absurd h hbuilder
  case report_shown => exact fun hfailed => absurd hstatus hfailed
  case failure_marked =>
    intro hplain
    exact iff_of_false (by simp [hquiet hplain]) hbuilder
  case failure_once => exact fun _ h => absurd h hbuilder
  case reported =>
    intro hplain
    exact iff_of_false (by simp [hquiet hplain]) fun h => h.1 hstatus
  case causes => exact fun hfailed => absurd hstatus hfailed

theorem Request.told_of_builder (hbuild : r.action = .build)
    (hruns : r.Runs v c t s site finished) (hending : finished.ending ≠ .exited 0)
    (hrun : (r.perform v).run c { tree := t } =
      .error (.builder s.builder.program finished.ending.status) session) :
    Told r v c t elapsed (r.outcome v c t) := by
  have hstatus : (r.outcome v c t).status =
      (Failure.builder s.builder.program finished.ending.status).exitStatus := by
    simp only [outcome, hrun, Outcome.statusOf]
  have hnonzero : (r.outcome v c t).status ≠ 0 := by
    have hpositive := (Failure.builder s.builder.program finished.ending.status).exitStatus_mem.1
    omega
  have hlast : Outcome.last ((r.perform v).run c { tree := t }) =
      .builderFailed (.builder s.builder.program finished.ending.status) := by
    rw [hrun]
    rfl
  have hsilent : (r.outcome v c t).marks .output v elapsed .success = 0 := by
    rw [Outcome.marks, r.text_output hlast (show Stream.errors ≠ .output by decide), Mark.count_empty]
  have hfailure : 0 < (r.outcome v c t).marks .errors v elapsed .failure :=
    Nat.lt_of_lt_of_le (Mark.count_builderFailed_pos _) (r.marks_outcome_ge hlast elapsed .failure)
  have hshown (hplain : r.AnnouncesPlainly v c t) (m : Mark) :
      (r.outcome v c t).marks .errors v elapsed m = if m = .failure then 1 else 0 := by
    obtain ⟨swept, hprepares, -⟩ := hruns
    exact (r.marks_errors hlast hbuild hplain elapsed m).trans ((if_pos rfl).trans
      (m.count_builderFailed ((hplain s site swept hprepares).message _)))
  have hbuilder : r.BuilderFails v c t := ⟨s, site, finished, hruns, hending⟩
  have hfailed : ¬ r.Succeeds v c t := fun h => h.not_builderFails hbuilder
  constructor
  case succeeded => exact iff_of_false hnonzero hfailed
  case exited =>
    intro s' site' finished' code hruns' hending' hfails hfits
    obtain ⟨-, -, rfl⟩ := hruns.unique hruns'
    rw [hstatus, hending']
    exact Failure.exitStatus_builder (Nat.pos_of_ne_zero hfails) hfits
  case killed =>
    intro s' site' finished' signal hruns' hending' hleast hmost
    obtain ⟨-, -, rfl⟩ := hruns.unique hruns'
    have hcounted : (Ending.killed signal).status = 128 + signal := rfl
    rw [hstatus, hending', hcounted]
    exact Failure.exitStatus_builder (by omega) (by omega)
  case otherwise => exact fun _ h => absurd hbuilder h
  case success_marked => exact iff_of_false (by omega) hnonzero
  case failure_shown => exact fun _ => hfailure
  case report_shown => exact fun _ h => absurd hbuilder h
  case failure_marked => exact fun _ => iff_of_true hfailure hbuilder
  case failure_once => exact fun hplain _ => ⟨by simp [hshown hplain], by simp [hshown hplain]⟩
  case reported =>
    intro hplain
    exact iff_of_false (by simp [hshown hplain]) fun h => h.2 hbuilder
  case causes => exact fun _ h => absurd hbuilder h

/-- Where a run ends with a report, the status is 1. -/
theorem Request.told_of_report {causes : List String} {n : Notice} (hbuild : r.action = .build)
    (hstatus : (r.outcome v c t).status = 1)
    (hlast : Outcome.last ((r.perform v).run c { tree := t }) = n) (hstream : n.stream = .errors)
    (hlines : n.lines v elapsed = Notice.report causes) (hfailed : ¬ r.Succeeds v c t)
    (hbuilder : ¬ r.BuilderFails v c t)
    (hcauses : (∃ f left, (r.perform v).effect c { tree := t } = (left, .error f) ∧
        n.text v elapsed = errorReport f) ∨
      (t.isDirectory c.directory = false ∧ n.text v elapsed = lossReport)) :
    Told r v c t elapsed (r.outcome v c t) := by
  have hcount (m : Mark) : m.count (n.text v elapsed) = if m = .report then 1 else 0 := by
    rw [Notice.text, hlines, Mark.count_report]
  have hsilent : (r.outcome v c t).marks .output v elapsed .success = 0 := by
    rw [Outcome.marks, r.text_output hlast (by simp [hstream]), Mark.count_empty]
  have hreport : 0 < (r.outcome v c t).marks .errors v elapsed .report := by
    have hleast := r.marks_outcome_ge hlast elapsed .report
    rw [hcount, if_pos rfl, hstream] at hleast
    exact hleast
  have hquiet (hplain : r.AnnouncesPlainly v c t) :
      (r.outcome v c t).marks .errors v elapsed .failure = 0 := by
    rw [r.marks_errors hlast hbuild hplain, if_pos hstream, hcount, if_neg (by decide)]
  constructor
  case succeeded => exact iff_of_false (by omega) hfailed
  case exited =>
    intro s site finished code hruns hending hfails
    exact absurd (hruns.code_eq_zero hbuilder hending) hfails
  case killed =>
    intro s site finished signal hruns hending
    exact absurd hending (hruns.not_killed hbuilder)
  case otherwise => exact fun _ _ => hstatus
  case success_marked => exact iff_of_false (by omega) (by omega)
  case failure_shown => exact fun h => absurd h hbuilder
  case report_shown => exact fun _ _ => hreport
  case failure_marked =>
    intro hplain
    exact iff_of_false (by simp [hquiet hplain]) hbuilder
  case failure_once => exact fun _ h => absurd h hbuilder
  case reported => exact fun _ => iff_of_true hreport ⟨by omega, hbuilder⟩
  case causes =>
    intro _ _
    obtain ⟨announced, htext⟩ := r.exists_text_outcome hlast elapsed
    rw [hstream] at htext
    exact ⟨announced, _, htext, hcauses⟩

theorem Request.told_of_other (hbuild : r.action = .build) (hkind : f.isBuilder = false)
    (hfailed : ¬ r.Succeeds v c t) (hbuilder : ¬ r.BuilderFails v c t)
    (hrun : (r.perform v).run c { tree := t } = .error f session) :
    Told r v c t elapsed (r.outcome v c t) := by
  have hstatus : (r.outcome v c t).status = 1 := by
    simp only [outcome, hrun, Outcome.statusOf]
    exact Failure.exitStatus_of_not_builder hkind
  have hlast : Outcome.last ((r.perform v).run c { tree := t }) = .failed f := by
    rw [hrun, Outcome.last, Outcome.closing, hkind]
    rfl
  exact r.told_of_report hbuild hstatus hlast rfl rfl hfailed hbuilder
    (.inl ⟨f, session.tree, Work.effect_of_error hrun, Notice.text_failed f⟩)

theorem Request.told_of_lost (hbuild : r.action = .build) (hgone : t.isDirectory c.directory = false)
    (hrun : (r.perform v).run c { tree := t } = .ok (.error .noEntry) session) :
    Told r v c t elapsed (r.outcome v c t) := by
  have hstatus : (r.outcome v c t).status = 1 := by simp only [outcome, hrun, Outcome.statusOf]
  have hlast : Outcome.last ((r.perform v).run c { tree := t }) = .lost .noEntry := by
    rw [hrun]
    rfl
  have hnever (s : Settings) (site : Site) (finished : Completion) :
      ¬ r.Runs v c t s site finished := by
    rintro ⟨swept, hprepares, -⟩
    rw [hprepares.directory] at hgone
    cases hgone
  obtain ⟨hfailed, hbuilder⟩ := Request.unended_of_never hnever
  exact r.told_of_report hbuild hstatus hlast rfl rfl hfailed hbuilder (.inr ⟨hgone, Notice.text_lost⟩)

end

end CommandLine
end DocBuild
