import DocBuild.Build
import DocBuild.Proofs.Work.Reports
import Mathlib.Data.List.Chain

namespace DocBuild

namespace Event

/-- The stage that an event tells of. -/
def stage? : Event → Option Stage
  | .stage s => some s
  | _ => none

end Event

/-- The stages among some events, in order. -/
def stagesIn (events : List Event) : List Stage :=
  events.filterMap Event.stage?

@[simp] theorem stagesIn_append (front back : List Event) :
    stagesIn (front ++ back) = stagesIn front ++ stagesIn back :=
  List.filterMap_append

theorem stagesIn_eq_nil {events : List Event} (h : events.all (·.stage?.isNone) = true) :
    stagesIn events = [] := by
  refine List.filterMap_eq_nil_iff.2 fun e he => ?_
  simpa using List.all_eq_true.1 h e he

theorem mem_stagesIn {stage : Stage} {events : List Event} :
    stage ∈ stagesIn events ↔ .stage stage ∈ events := by
  rw [stagesIn, List.mem_filterMap]
  constructor
  · rintro ⟨e, he, hstage⟩
    cases e with
    | stage s => exact Option.some.inj hstage ▸ he
    | _ => cases hstage
  · exact fun h => ⟨_, h, rfl⟩

theorem stagesIn_filter_isCallback (events : List Event) :
    stagesIn (events.filter Event.isCallback) = stagesIn events := by
  rw [stagesIn, List.filterMap_filter]
  exact List.filterMap_congr fun e _ => by cases e <;> rfl

namespace Session

/-- The session in which further events have been reported. -/
def add (s : Session) (new : List Event) : Session :=
  { s with events := s.events ++ new }

@[simp] theorem tree_add (s : Session) (new : List Event) : (s.add new).tree = s.tree := rfl

/-- A build reaches a stage. -/
def enter (s : Session) (stage : Stage) : Session :=
  s.add [.stage stage]

@[simp] theorem tree_enter (s : Session) (stage : Stage) : (s.enter stage).tree = s.tree := rfl

@[simp] theorem events_enter (s : Session) (stage : Stage) :
    (s.enter stage).events = s.events ++ [.stage stage] := rfl

/-- A build fails in a stage. -/
def fail (s : Session) (stage : Stage) (f : Failure) : Session :=
  s.add [.log ⟨.warn, .pipeline, "documentation build failed",
    [("stage", .text stage.name), ("error", .text f.message)]⟩, .stage .failed]

@[simp] theorem tree_fail (s : Session) (stage : Stage) (f : Failure) :
    (s.fail stage f).tree = s.tree := rfl

end Session

namespace Stage

theorem walk_start :
    Stage.start.walk = [.start, .rootResolved, .preCleaned, .built, .postCleaned, .done] := by
  simp [walk, next?]

/-- A build may go from one stage to another: to the one that follows, or to failure as long as it has
    not ended. -/
def LeadsTo (s t : Stage) : Prop :=
  s.next? = some t ∨ s.isTerminal = false ∧ t = .failed

theorem LeadsTo.not_terminal {s t : Stage} (h : s.LeadsTo t) : s.isTerminal = false := by
  rcases h with hnext | ⟨hgoing, -⟩
  · refine Bool.eq_false_iff.2 fun hended => ?_
    rw [(isTerminal_iff s).1 hended] at hnext
    cases hnext
  · exact hgoing

/-- Every stage of a walk but its last one is left again. -/
theorem not_terminal_of_isChain {front back : List Stage} (h : (front ++ back).IsChain LeadsTo)
    (hback : back ≠ []) : ∀ s ∈ front, s.isTerminal = false := by
  induction front with
  | nil => exact nofun
  | cons s front ih =>
    obtain ⟨t, rest, hrest⟩ := List.exists_cons_of_ne_nil (List.append_ne_nil_of_right_ne_nil front hback)
    rw [List.cons_append, hrest, List.isChain_cons_cons] at h
    refine List.forall_mem_cons.2 ⟨h.1.not_terminal, ih ?_⟩
    rw [hrest]
    exact h.2

end Stage

/-- What a tracker has walked is what has been reported since the build began: a walk from the first
    stage to the current one. -/
structure Tracker.Mirrors (k : Tracker) (before : List Event) (s : Session) : Prop where
  reported : ∃ told, s.events = before ++ told ∧ stagesIn told = k.walked
  begins : k.walked.head? = some .start
  current : k.walked.getLast? = some k.current
  steps : k.walked.IsChain Stage.LeadsTo

namespace Tracker.Mirrors

variable {k : Tracker} {before : List Event} {s s' : Session} {stage : Stage}

theorem begin (s : Session) : ({} : Tracker).Mirrors s.events (s.enter .start) where
  reported := ⟨[.stage .start], rfl, rfl⟩
  begins := rfl
  current := rfl
  steps := .singleton _

theorem of_silent {new : List Event} (h : k.Mirrors before s) (hnew : s'.events = s.events ++ new)
    (hsilent : new.all (·.stage?.isNone) = true) : k.Mirrors before s' := by
  obtain ⟨told, hevents, htold⟩ := h.reported
  refine ⟨⟨told ++ new, ?_, ?_⟩, h.begins, h.current, h.steps⟩
  · rw [hnew, hevents, List.append_assoc]
  · rw [stagesIn_append, stagesIn_eq_nil hsilent, List.append_nil, htold]

/-- One step more, on both sides. -/
theorem enter (h : k.Mirrors before s) (hstep : k.current.LeadsTo stage) :
    (k.enter stage).Mirrors before (s.enter stage) := by
  obtain ⟨told, hevents, htold⟩ := h.reported
  refine ⟨⟨told ++ [.stage stage], ?_, ?_⟩, ?_, ?_, ?_⟩
  · rw [Session.events_enter, hevents, List.append_assoc]
  · rw [stagesIn_append, htold]
    rfl
  · rw [Tracker.enter, List.head?_append, h.begins]
    rfl
  · exact List.getLast?_concat
  · refine h.steps.append (.singleton _) ?_
    rintro last hlast next hnext
    rw [h.current] at hlast
    obtain rfl := Option.some.inj hlast
    obtain rfl := Option.some.inj hnext
    exact hstep

end Tracker.Mirrors

namespace Tracked

variable {α β : Type} {c : Context} {s s' : Session} {k : Tracker} {f : Failure} {stage : Stage}
  {before : List Event}

theorem run_bind_of_ok {x : Tracked α} {g : α → Tracked β} {a : α} {p p' : Session × Tracker}
    (h : x.run c p = .ok a p') : (x >>= g).run c p = (g a).run c p' :=
  Work.bind_of_ok h

theorem run_bind_of_error {x : Tracked α} {g : α → Tracked β} {p p' : Session × Tracker}
    (h : x.run c p = .error f p') : (x >>= g).run c p = .error f p' :=
  Work.bind_of_error h

/-- A failure that is caught is dealt with where it has happened. -/
theorem run_tryCatch {x : Tracked α} {handle : Failure → Tracked α} {p : Session × Tracker} :
    (tryCatch x handle : Tracked α).run c p =
      match x.run c p with
      | .ok a p' => .ok a p'
      | .error f p' => (handle f).run c p' := by
  change EStateM.tryCatch (x c) (fun f => handle f c) p = _
  delta EStateM.tryCatch
  cases h : x.run c p with
  | ok a p' =>
    have hx : x c p = .ok a p' := h
    dsimp only
    rw [hx]
  | error f p' =>
    have hx : x c p = .error f p' := h
    dsimp only
    rw [hx]
    rfl

theorem run_ofWork_of_ok {work : Work α} {a : α} (h : work.run c s = .ok a s') :
    (ofWork work).run c (s, k) = .ok a (s', k) := by
  simp only [run, ReaderT.run, ofWork, h]

theorem run_ofWork_of_error {work : Work α} (h : work.run c s = .error f s') :
    (ofWork work).run c (s, k) = .error f (s', k) := by
  simp only [run, ReaderT.run, ofWork, h]

theorem run_tracker (c : Context) (s : Session) (k : Tracker) :
    tracker.run c (s, k) = .ok k (s, k) := rfl

theorem run_enter (c : Context) (s : Session) (k : Tracker) (stage : Stage) :
    (enter stage).run c (s, k) = .ok () (s.enter stage, k.enter stage) := rfl

theorem run_advance_of_next (h : k.current.next? = some stage) :
    advance.run c (s, k) = .ok () (s.enter stage, k.enter stage) := by
  rw [advance, run_bind_of_ok (run_tracker c s k), h]
  exact run_enter c s k stage

theorem run_advance_of_ended (h : k.current.next? = none) :
    advance.run c (s, k) = .ok () (s, k) := by
  rw [advance, run_bind_of_ok (run_tracker c s k), h]
  rfl

theorem run_fail_of_going (h : k.current.isTerminal = false) :
    fail.run c (s, k) = .ok () (s.enter .failed, k.enter .failed) := by
  rw [fail, run_bind_of_ok (run_tracker c s k), h]
  exact run_enter c s k .failed

theorem run_fail_of_ended (h : k.current.isTerminal = true) :
    fail.run c (s, k) = .ok () (s, k) := by
  rw [fail, run_bind_of_ok (run_tracker c s k), h]
  rfl

/-- A build that has not ended and is abandoned ends in failure. -/
theorem run_abandon_of_going (h : k.current.isTerminal = false) :
    (abandon f : Tracked α).run c (s, k) = .error f (s.fail k.current f, k.enter .failed) := by
  rw [abandon, run_bind_of_ok (run_tracker c s k)]
  refine (run_bind_of_ok (run_ofWork_of_ok (Work.run_log _))).trans ?_
  refine (run_bind_of_ok (run_fail_of_going h)).trans ?_
  simp only [Session.enter, Session.fail, Session.add, List.append_assoc]
  rfl

theorem run_track_of_ok {work : Tracked α} {a : α}
    (h : work.run c (s.enter .start, {}) = .ok a (s', k)) : (track work).run c s = .ok a s' := by
  have huntracked : (untracked work).run c (s.enter .start) = .ok a s' := by
    simp only [Work.run, ReaderT.run, untracked]
    rw [h]
  rw [track, Work.run_bind_of_ok (Work.run_report _)]
  exact huntracked

theorem run_track_of_error {work : Tracked α}
    (h : work.run c (s.enter .start, {}) = .error f (s', k)) :
    (track work).run c s = .error f s' := by
  have huntracked : (untracked work).run c (s.enter .start) = .error f s' := by
    simp only [Work.run, ReaderT.run, untracked]
    rw [h]
  rw [track, Work.run_bind_of_ok (Work.run_report _)]
  exact huntracked

/-- Work that keeps a tracker in step with what is reported, whether it succeeds or fails. -/
def Tracks (work : Tracked α) : Prop :=
  ∀ before c s k, Tracker.Mirrors k before s →
    match work.run c (s, k) with
    | .ok _ p | .error _ p => p.2.Mirrors before p.1

theorem Tracks.of_ok {work : Tracked α} {a : α} {p : Session × Tracker} (h : work.Tracks)
    (hmirrors : k.Mirrors before s) (hrun : work.run c (s, k) = .ok a p) :
    p.2.Mirrors before p.1 := by
  have hkept := h before c s k hmirrors
  rwa [hrun] at hkept

theorem Tracks.of_error {work : Tracked α} {p : Session × Tracker} (h : work.Tracks)
    (hmirrors : k.Mirrors before s) (hrun : work.run c (s, k) = .error f p) :
    p.2.Mirrors before p.1 := by
  have hkept := h before c s k hmirrors
  rwa [hrun] at hkept

theorem Tracks.bind {x : Tracked α} {g : α → Tracked β} (hx : x.Tracks) (hg : ∀ a, (g a).Tracks) :
    (x >>= g).Tracks := by
  intro before c s k hmirrors
  cases hrun : x.run c (s, k) with
  | ok a p =>
    rw [run_bind_of_ok hrun]
    exact hg a before c p.1 p.2 (hx.of_ok hmirrors hrun)
  | error f p =>
    rw [run_bind_of_error hrun]
    exact hx.of_error hmirrors hrun

theorem Tracks.tryCatch {x : Tracked α} {handle : Failure → Tracked α} (hx : x.Tracks)
    (hhandle : ∀ f, (handle f).Tracks) : (tryCatch x handle : Tracked α).Tracks := by
  intro before c s k hmirrors
  rw [run_tryCatch]
  cases hrun : x.run c (s, k) with
  | ok a p => exact hx.of_ok hmirrors hrun
  | error f p => exact hhandle f before c p.1 p.2 (hx.of_error hmirrors hrun)

theorem tracks_pure (a : α) : (pure a : Tracked α).Tracks := fun _ _ _ _ h => h

theorem tracks_throw (f : Failure) : (throw f : Tracked α).Tracks := fun _ _ _ _ h => h

theorem tracks_tracker : tracker.Tracks := fun _ _ _ _ h => h

/-- Work that reports no stage leaves a tracker in step. -/
theorem tracks_ofWork {work : Work α} (h : work.ReportsOnly (·.stage?.isNone)) :
    (ofWork work).Tracks := by
  intro before c s k hmirrors
  cases hrun : work.run c s with
  | ok a s' =>
    rw [run_ofWork_of_ok hrun]
    obtain ⟨new, hnew, hsilent⟩ := h.of_ok hrun
    exact hmirrors.of_silent hnew hsilent
  | error f s' =>
    rw [run_ofWork_of_error hrun]
    obtain ⟨new, hnew, hsilent⟩ := h.of_error hrun
    exact hmirrors.of_silent hnew hsilent

theorem tracks_advance : advance.Tracks := by
  intro before c s k hmirrors
  cases hnext : k.current.next? with
  | some stage =>
    rw [run_advance_of_next hnext]
    exact hmirrors.enter (.inl hnext)
  | none =>
    rw [run_advance_of_ended hnext]
    exact hmirrors

theorem tracks_fail : fail.Tracks := by
  intro before c s k hmirrors
  cases hgoing : k.current.isTerminal with
  | false =>
    rw [run_fail_of_going hgoing]
    exact hmirrors.enter (.inr ⟨hgoing, rfl⟩)
  | true =>
    rw [run_fail_of_ended hgoing]
    exact hmirrors

end Tracked

section

variable {find : RootFinder} {start : Path} {layout : LayoutSection} {builder : BuilderSection}
  {c : Context} {s s' : Session} {k k' : Tracker}

/-- The stages in the report are those that the tracker has walked. -/
theorem run_conclude_of_advance {site : Site} {removed : List Path} {b : Bool}
    (h : Tracked.advance.run c (s, k) = .ok () (s', k')) :
    (conclude site removed b).run c (s, k) = .ok
      { site, removed, generatedCleaned := b, stages := k'.walked }
      (s'.add [.log ⟨.info, .pipeline, "documentation built",
        [("output", .text site.output.display)]⟩, .done k'.walked.length], k') := by
  rw [conclude, Tracked.run_bind_of_ok h, Tracked.run_bind_of_ok (Tracked.run_tracker c _ _)]
  refine (Tracked.run_bind_of_ok (Tracked.run_ofWork_of_ok (Work.run_log _))).trans ?_
  refine (Tracked.run_bind_of_ok (Tracked.run_ofWork_of_ok (Work.run_report _))).trans ?_
  simp only [Session.add, List.append_assoc]
  rfl

theorem reportsOnly_removeForced (p : Path) : (removeForced p).ReportsOnly Event.isRecord := by
  refine Work.reportsOnly_read.bind fun c => (Work.reportsOnly_onTree _).bind fun removed => ?_
  cases removed <;> exact (Work.reportsOnly_log _).bind fun _ => Work.reportsOnly_pure _

theorem reportsOnly_removeAll (ps : List Path) : (removeAll ps).ReportsOnly Event.isRecord := by
  induction ps with
  | nil => exact Work.reportsOnly_pure []
  | cons p ps ih =>
    exact (reportsOnly_removeForced p).bind fun removed => ih.bind fun more =>
      Work.reportsOnly_pure _

/-- A builder that runs prints and is logged. -/
theorem BuilderSection.reportsOnly_run (b : BuilderSection) (root sources output : Path) :
    (b.run root sources output).ReportsOnly (!·.isCallback) := by
  refine (Work.reportsOnly_report rfl).bind fun _ => Work.reportsOnly_read.bind fun c =>
    Work.reportsOnly_tree.bind fun t => ?_
  split
  · exact Work.reportsOnly_throw _
  · refine (Work.reportsOnly_setTree _).bind fun _ => (Work.reportsOnly_report rfl).bind fun _ =>
      (Work.reportsOnly_report rfl).bind fun _ => ?_
    split
    · exact Work.reportsOnly_report rfl
    · exact Work.reportsOnly_throw _

theorem not_isCallback_of_isRecord (e : Event) (h : e.isRecord = true) :
    (!e.isCallback) = true := by
  cases e with
  | log => rfl
  | _ => cases h

theorem isNone_stage?_of_not_isCallback (e : Event) (h : (!e.isCallback) = true) :
    e.stage?.isNone = true := by
  cases e with
  | stage => cases h
  | _ => rfl

/-- The steps of a build tell of no stage themselves, and the tracker tells of each that they reach. -/
theorem tracks_steps (hfind : (find start).ReportsOnly (!·.isCallback)) :
    (steps find start layout builder).Tracks := by
  have hsilent := hfind.mono isNone_stage?_of_not_isCallback
  have hrecord (e : Event) (h : e.isRecord = true) : e.stage?.isNone = true :=
    isNone_stage?_of_not_isCallback e (not_isCallback_of_isRecord e h)
  refine (Tracked.tracks_ofWork ?_).bind fun site => Tracked.tracks_advance.bind fun _ => ?_
  · exact ((Work.reportsOnly_report rfl).bind fun _ => hsilent.bind fun root =>
      Work.reportsOnly_ofExcept _).bind fun site =>
        (Work.reportsOnly_report rfl).bind fun _ => Work.reportsOnly_pure site
  refine (Tracked.tracks_ofWork ?_).bind fun removed => Tracked.tracks_advance.bind fun _ => ?_
  · exact (Work.reportsOnly_report rfl).bind fun _ => (reportsOnly_removeAll _).mono hrecord
  refine (Tracked.tracks_ofWork ?_).bind fun _ => Tracked.tracks_advance.bind fun _ => ?_
  · exact (Work.reportsOnly_report rfl).bind fun _ =>
      (builder.reportsOnly_run _ _ _).mono isNone_stage?_of_not_isCallback
  refine (Tracked.tracks_ofWork ?_).bind fun b => Tracked.tracks_advance.bind fun _ => ?_
  · exact (Work.reportsOnly_report rfl).bind fun _ => (reportsOnly_removeForced _).mono hrecord
  exact Tracked.tracks_pure _

theorem tracks_abandon {α : Type} (f : Failure) : (abandon f : Tracked α).Tracks :=
  Tracked.tracks_tracker.bind fun _ =>
    (Tracked.tracks_ofWork (Work.reportsOnly_report rfl)).bind fun _ =>
      Tracked.tracks_fail.bind fun _ => Tracked.tracks_throw f

theorem tracks_conclude (site : Site) (removed : List Path) (b : Bool) :
    (conclude site removed b).Tracks :=
  Tracked.tracks_advance.bind fun _ => Tracked.tracks_tracker.bind fun _ =>
    (Tracked.tracks_ofWork (Work.reportsOnly_report rfl)).bind fun _ =>
      (Tracked.tracks_ofWork (Work.reportsOnly_report rfl)).bind fun _ => Tracked.tracks_pure _

/-- What a build reports of its stages is a walk from the first one, and a build that succeeds gives
    just this walk in its report. -/
theorem build_reports_walk (hfind : (find start).ReportsOnly (!·.isCallback)) :
    ∃ told, ((build find start layout builder).ends c s).events = s.events ++ told ∧
      (stagesIn told).head? = some .start ∧ (stagesIn told).IsChain Stage.LeadsTo ∧
      ∀ report s', (build find start layout builder).run c s = .ok report s' →
        report.stages = stagesIn told := by
  have htracks : (tryCatch (steps find start layout builder) abandon : Tracked _).Tracks :=
    (tracks_steps hfind).tryCatch tracks_abandon
  have hbegin := Tracker.Mirrors.begin s
  cases hsteps : (tryCatch (steps find start layout builder) abandon : Tracked _).run c
      (s.enter .start, {}) with
  | error f p =>
    have hrun : (build find start layout builder).run c s = .error f p.1 :=
      Tracked.run_track_of_error (Tracked.run_bind_of_error hsteps)
    have hmirrors := htracks.of_error hbegin hsteps
    obtain ⟨told, hevents, htold⟩ := hmirrors.reported
    refine ⟨told, by rw [Work.ends_of_error hrun, hevents], ?_, ?_, ?_⟩
    · rw [htold, hmirrors.begins]
    · rw [htold]
      exact hmirrors.steps
    · intro report s' hok
      rw [hrun] at hok
      cases hok
  | ok result p =>
    obtain ⟨site, removed, b⟩ := result
    have hmirrors := htracks.of_ok hbegin hsteps
    obtain ⟨⟨after, k⟩, hadvance⟩ : ∃ p', Tracked.advance.run c p = .ok () p' := by
      cases hnext : p.2.current.next? with
      | some stage => exact ⟨_, Tracked.run_advance_of_next hnext⟩
      | none => exact ⟨_, Tracked.run_advance_of_ended hnext⟩
    obtain ⟨last, hconclude⟩ : ∃ last, (conclude site removed b).run c p =
        .ok { site, removed, generatedCleaned := b, stages := k.walked } (last, k) :=
      ⟨_, run_conclude_of_advance hadvance⟩
    have hrun : (build find start layout builder).run c s =
        .ok { site, removed, generatedCleaned := b, stages := k.walked } last :=
      Tracked.run_track_of_ok ((Tracked.run_bind_of_ok hsteps).trans hconclude)
    have hmirrors' := (tracks_conclude site removed b).of_ok hmirrors hconclude
    obtain ⟨told, hevents, htold⟩ := hmirrors'.reported
    refine ⟨told, (congrArg Session.events (Work.ends_of_ok hrun)).trans hevents, ?_, ?_, ?_⟩
    · rw [htold, hmirrors'.begins]
    · rw [htold]
      exact hmirrors'.steps
    · intro report s' hok
      obtain ⟨rfl, -⟩ := EStateM.Result.ok.inj (hrun.symm.trans hok)
      exact htold.symm

end

end DocBuild
