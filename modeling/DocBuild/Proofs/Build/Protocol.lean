import DocBuild.Proofs.Build.Course
import Mathlib.Data.List.Basic

namespace DocBuild

variable {α : Type} {c : Context} {find : RootFinder} {start : Path} {layout : LayoutSection}
  {builder : BuilderSection} {s : Session} {result : EStateM.Result Failure Session BuildReport}

/-- What a session has told about the course of commands. -/
def Session.callbacks (s : Session) : List Event :=
  s.events.filter Event.isCallback

@[simp] theorem Session.callbacks_add (s : Session) (new : List Event) :
    (s.add new).callbacks = s.callbacks ++ new.filter Event.isCallback :=
  List.filter_append ..

@[simp] theorem Session.callbacks_enter (s : Session) (stage : Stage) :
    (s.enter stage).callbacks = s.callbacks ++ [.stage stage] :=
  s.callbacks_add _

@[simp] theorem Session.callbacks_fail (s : Session) (stage : Stage) (f : Failure) :
    (s.fail stage f).callbacks = s.callbacks ++ [.stage .failed] :=
  s.callbacks_add _

@[simp] theorem Session.callbacks_finish (s : Session) (site : Site) :
    (s.finish site).callbacks =
      s.callbacks ++ [.stage .postCleaned, .stage .done, .done Stage.start.walk.length] :=
  s.callbacks_add _

/-- Work that tells one thing about its course, and first. -/
def Work.Announces (e : Event) (work : Work α) : Prop :=
  ∀ c s, (work.ends c s).callbacks = s.callbacks ++ [e]

theorem Work.announces_report {e : Event} {work : Work α} (he : e.isCallback = true)
    (hwork : work.ReportsOnly (!·.isCallback)) : (do report e; work).Announces e := by
  intro c s
  obtain ⟨new, hnew, hall⟩ := hwork c (s.add [e])
  have hends : (do report e; work).ends c s = work.ends c (s.add [e]) := by
    simp only [ends, run_bind_of_ok (run_report e), Session.add]
  have hsilent : new.filter Event.isCallback = [] :=
    List.filter_eq_nil_iff.2 fun e he => by simpa using List.all_eq_true.1 hall e he
  rw [hends, Session.callbacks, hnew, List.filter_append, hsilent, List.append_nil]
  exact (s.callbacks_add [e]).trans (by rw [List.filter_cons, he]; rfl)

theorem Work.Announces.of_ok {e : Event} {work : Work α} {a : α} {s' : Session}
    (h : work.Announces e) (hrun : work.run c s = .ok a s') :
    s'.callbacks = s.callbacks ++ [e] := by
  rw [← Work.ends_of_ok hrun]
  exact h c s

theorem Work.Announces.of_error {e : Event} {work : Work α} {f : Failure} {s' : Session}
    (h : work.Announces e) (hrun : work.run c s = .error f s') :
    s'.callbacks = s.callbacks ++ [e] := by
  rw [← Work.ends_of_error hrun]
  exact h c s

theorem announces_searching (hfind : (find start).ReportsOnly (!·.isCallback)) :
    (searching find start layout).Announces (.phase "Resolving repository root") := by
  unfold searching findSite
  rw [bind_assoc]
  refine Work.announces_report rfl ?_
  rw [bind_assoc]
  exact hfind.bind fun root => (Work.reportsOnly_ofExcept _).bind fun site =>
    (Work.reportsOnly_report rfl).bind fun _ => Work.reportsOnly_pure site

theorem announces_sweeping (site : Site) :
    (sweeping site).Announces (.phase "Removing previous build output") :=
  Work.announces_report rfl ((reportsOnly_removeAll _).mono not_isCallback_of_isRecord)

theorem announces_tidying (site : Site) :
    (tidying site).Announces (.phase "Removing generated sources") :=
  Work.announces_report rfl ((reportsOnly_removeForced _).mono not_isCallback_of_isRecord)

theorem announces_building (builder : BuilderSection) (site : Site) :
    (building builder site).Announces (.builder (builder.command site.sources site.output).line) :=
  Work.announces_report rfl (builder.reportsOnly_run _ _ _)

namespace Stage

/-- What a build tells in a stage; `line` is the command of the builder. -/
def agenda (line : String) : Stage → List Event
  | .start => [.phase "Resolving repository root"]
  | .rootResolved => [.phase "Removing previous build output"]
  | .preCleaned => [.builder line]
  | .built => [.phase "Removing generated sources"]
  | .postCleaned | .done | .failed => []

/-- The failures that a step can end with, by the stage it begins in; `unlocated` are those of the
    root finder. -/
def MayFailWith (unlocated : Failure → Prop) : Stage → Failure → Prop
  | .start, f => unlocated f ∨ (∃ m, f = .environment m) ∨ ∃ m, f = .validation m
  | .rootResolved, f | .built, f => ∃ p e, f = .file p e
  | .preCleaned, f => (∃ m, f = .environment m) ∨ ∃ program status, f = .builder program status
  | _, _ => False

end Stage

/-- The callbacks of a build that has gone through some stages. -/
def callbacksOf (line : String) (stages : List Stage) : List Event :=
  stages.flatMap fun stage => .stage stage :: stage.agenda line

section Steps

variable {site : Site} {removed : List Path} {found swept built : Session}
  (hfind : (find start).ReportsOnly (!·.isCallback))
  (hsearch : (searching find start layout).run c (s.enter .start) = .ok site found)
include hfind hsearch

theorem callbacks_of_searching (line : String) :
    found.callbacks = s.callbacks ++ callbacksOf line [.start] := by
  simp [(announces_searching hfind).of_ok hsearch, callbacksOf, Stage.agenda]

theorem callbacks_of_sweeping
    (hsweep : (sweeping site).run c (found.enter .rootResolved) = .ok removed swept) (line : String) :
    swept.callbacks = s.callbacks ++ callbacksOf line [.start, .rootResolved] := by
  simp [(announces_sweeping site).of_ok hsweep, callbacks_of_searching hfind hsearch line, callbacksOf,
    Stage.agenda]

theorem callbacks_of_building
    (hsweep : (sweeping site).run c (found.enter .rootResolved) = .ok removed swept)
    (hbuild : (building builder site).run c (swept.enter .preCleaned) = .ok () built) :
    built.callbacks = s.callbacks ++ callbacksOf (builder.command site.sources site.output).line
      [.start, .rootResolved, .preCleaned] := by
  simp [(announces_building builder site).of_ok hbuild, callbacks_of_sweeping hfind hsearch hsweep "",
    callbacksOf, Stage.agenda]

end Steps

/-- A build tells what belongs to the stages it reaches, and then how it has ended. -/
theorem BuildCourse.told (hfind : (find start).ReportsOnly (!·.isCallback))
    (h : BuildCourse c find start layout builder s result) :
    ∃ line,
      (∃ report s', result = .ok report s' ∧
        s'.callbacks = s.callbacks ++
          (callbacksOf line Stage.start.walk ++ [.done Stage.start.walk.length])) ∨
      ∃ k f s', k ≤ 3 ∧ result = .error f s' ∧
        s'.callbacks = s.callbacks ++
          (callbacksOf line (Stage.start.walk.take (k + 1)) ++ [.stage .failed]) ∧
        ∃ stage, Stage.start.walk[k]? = some stage ∧
          stage.MayFailWith (fun f => ∃ found, (find start).run c s.asking = .error f found) f := by
  rw [Stage.walk_start]
  cases h with
  | @unresolved f found hsearch =>
    refine ⟨"", .inr ⟨0, f, _, by decide, rfl, ?_, .start, rfl, ?_⟩⟩
    · simp [(announces_searching hfind).of_error hsearch, callbacksOf, Stage.agenda]
    · rcases run_searching_eq_error hsearch with hfailed | ⟨root, m, -, -, rfl⟩
      · exact .inl ⟨found, hfailed⟩
      · exact .inr (.inr ⟨m, rfl⟩)
  | @unswept site f found swept hsearch hsweep =>
    refine ⟨"", .inr ⟨1, f, _, by decide, rfl, ?_, .rootResolved, rfl, ?_⟩⟩
    · simp [(announces_sweeping site).of_error hsweep, callbacks_of_searching hfind hsearch "",
        callbacksOf, Stage.agenda]
    · unfold sweeping at hsweep
      rw [Work.run_bind_of_ok (Work.run_report _)] at hsweep
      exact run_removeAll_eq_error hsweep
  | @unbuilt site removed f found swept built hsearch hsweep hbuild =>
    refine ⟨(builder.command site.sources site.output).line,
      .inr ⟨2, f, _, by decide, rfl, ?_, .preCleaned, rfl, ?_⟩⟩
    · simp [(announces_building builder site).of_error hbuild,
        callbacks_of_sweeping hfind hsearch hsweep "", callbacksOf, Stage.agenda]
    · exact run_building_eq_error hbuild
  | @untidied site removed f found swept built tidied hsearch hsweep hbuild htidy =>
    refine ⟨(builder.command site.sources site.output).line,
      .inr ⟨3, f, _, by decide, rfl, ?_, .built, rfl, ?_⟩⟩
    · simp [(announces_tidying site).of_error htidy,
        callbacks_of_building hfind hsearch hsweep hbuild, callbacksOf, Stage.agenda]
    · unfold tidying at htidy
      rw [Work.run_bind_of_ok (Work.run_report _)] at htidy
      obtain ⟨e, rfl, -⟩ := run_removeForced_eq_error htidy
      exact ⟨_, _, rfl⟩
  | @finished site removed generatedCleaned found swept built tidied hsearch hsweep hbuild htidy =>
    refine ⟨(builder.command site.sources site.output).line, .inl ⟨_, _, rfl, ?_⟩⟩
    simp [(announces_tidying site).of_ok htidy, callbacks_of_building hfind hsearch hsweep hbuild,
      callbacksOf, Stage.agenda, Stage.walk_start]

theorem Session.builder_mem_callbacks {line : String} :
    .builder line ∈ s.callbacks ↔ .builder line ∈ s.events := by
  simp [callbacks, Event.isCallback]

/-- A build announces no builder but the one it starts, for the site that it has cleaned. -/
theorem announced_of_build (hfind : (find start).ReportsOnly (!·.isCallback)) {line : String}
    (hnew : .builder line ∉ s.events)
    (hline : .builder line ∈ ((build find start layout builder).ends c s).events) :
    ∃ site removed found swept,
      (searching find start layout).run c (s.enter .start) = .ok site found ∧
      (sweeping site).run c (found.enter .rootResolved) = .ok removed swept ∧
      line = (builder.command site.sources site.output).line := by
  rw [← Session.builder_mem_callbacks] at hnew hline
  have hcourse := buildCourse_run c find start layout builder s
  generalize hrun : (build find start layout builder).run c s = result at hcourse
  cases hcourse with
  | unresolved hsearch =>
    rw [Work.ends_of_error hrun] at hline
    simp [(announces_searching hfind).of_error hsearch, hnew] at hline
  | @unswept site f found swept hsearch hsweep =>
    rw [Work.ends_of_error hrun] at hline
    simp [(announces_sweeping site).of_error hsweep, callbacks_of_searching hfind hsearch line, hnew,
      callbacksOf, Stage.agenda] at hline
  | @unbuilt site removed f found swept built hsearch hsweep hbuild =>
    rw [Work.ends_of_error hrun] at hline
    refine ⟨site, removed, found, swept, hsearch, hsweep, ?_⟩
    simpa [(announces_building builder site).of_error hbuild,
      callbacks_of_sweeping hfind hsearch hsweep line, hnew, callbacksOf, Stage.agenda] using hline
  | @untidied site removed f found swept built tidied hsearch hsweep hbuild htidy =>
    rw [Work.ends_of_error hrun] at hline
    refine ⟨site, removed, found, swept, hsearch, hsweep, ?_⟩
    simpa [(announces_tidying site).of_error htidy, callbacks_of_building hfind hsearch hsweep hbuild,
      hnew, callbacksOf, Stage.agenda] using hline
  | @finished site removed generatedCleaned found swept built tidied hsearch hsweep hbuild htidy =>
    rw [Work.ends_of_ok hrun] at hline
    refine ⟨site, removed, found, swept, hsearch, hsweep, ?_⟩
    simpa [(announces_tidying site).of_ok htidy, callbacks_of_building hfind hsearch hsweep hbuild,
      hnew, callbacksOf, Stage.agenda] using hline

@[simp] theorem stagesIn_callbacksOf (line : String) (stages : List Stage) :
    stagesIn (callbacksOf line stages) = stages := by
  induction stages with
  | nil => rfl
  | cons stage stages ih =>
    have hagenda : stagesIn (stage.agenda line) = [] := by cases stage <;> rfl
    have hcons : callbacksOf line (stage :: stages) =
        [.stage stage] ++ stage.agenda line ++ callbacksOf line stages := rfl
    rw [hcons, stagesIn_append, stagesIn_append, hagenda, ih]
    rfl

theorem mem_callbacksOf {e : Event} {line : String} {stages : List Stage} :
    e ∈ callbacksOf line stages ↔ ∃ stage ∈ stages, e = .stage stage ∨ e ∈ stage.agenda line := by
  simp [callbacksOf]

theorem nodup_walk : Stage.start.walk.Nodup := by
  rw [Stage.walk_start]
  decide

section Positions

variable {line : String} {stage : Stage} {stages before after : List Stage} {k : Nat} {e : Event}
  {ending front back : List Event}

/-- An event that belongs to one stage stands behind it, and before what the next stages tell. -/
theorem callback_position (hnodup : stages.Nodup) (hstage : ∀ st, e ∉ [Event.stage st])
    (honly : ∀ st, e ∈ st.agenda line → st = stage) (hending : e ∉ ending)
    (h : callbacksOf line stages ++ ending = front ++ e :: back) :
    ∃ before after, stages = before ++ stage :: after ∧ stagesIn front = before ++ [stage] ∧
      back = callbacksOf line after ++ ending := by
  have honlyIn (sts : List Stage) (he : e ∈ callbacksOf line sts) :
      stage ∈ sts ∧ e ∈ stage.agenda line := by
    obtain ⟨st, hst, hevent | hagenda⟩ := mem_callbacksOf.1 he
    · exact absurd (List.mem_singleton.2 hevent) (hstage st)
    · obtain rfl := honly st hagenda
      exact ⟨hst, hagenda⟩
  have hmem : e ∈ callbacksOf line stages ++ ending := by
    rw [h]
    exact List.mem_append_right _ (List.mem_cons_self ..)
  obtain ⟨hst, hagenda⟩ := honlyIn stages ((List.mem_append.1 hmem).resolve_right hending)
  obtain ⟨before, after, rfl⟩ := List.append_of_mem hst
  rw [List.nodup_append, List.nodup_cons] at hnodup
  have hbefore : e ∉ callbacksOf line before ++ [.stage stage] := by
    rw [List.mem_append]
    rintro (he | he)
    · exact hnodup.2.2 stage (honlyIn before he).1 stage (List.mem_cons_self ..) rfl
    · exact hstage stage he
  have hafter : e ∉ callbacksOf line after ++ ending := by
    rw [List.mem_append]
    rintro (he | he)
    · exact hnodup.2.1.1 (honlyIn after he).1
    · exact hending he
  have halone : stage.agenda line = [e] := by
    cases stage <;> simp_all [Stage.agenda]
  have hsplit : callbacksOf line (before ++ stage :: after) ++ ending =
      (callbacksOf line before ++ [.stage stage]) ++ e :: (callbacksOf line after ++ ending) := by
    simp [callbacksOf, halone]
  rw [hsplit] at h
  obtain ⟨rfl, -, rfl⟩ := (List.append_cons_inj_of_notMem hbefore hafter).1 h
  refine ⟨before, after, rfl, ?_, rfl⟩
  rw [stagesIn_append, stagesIn_callbacksOf]
  rfl

/-- What a build has walked before a stage does not depend on how far it goes on. -/
theorem before_eq {front rest : List Stage} (hwalk : Stage.start.walk = front ++ stage :: rest)
    (h : Stage.start.walk.take (k + 1) = before ++ stage :: after) : before = front := by
  have hnodup := nodup_walk
  have hsplit : before ++ stage :: (after ++ Stage.start.walk.drop (k + 1)) =
      front ++ stage :: rest := by
    rw [← hwalk, ← List.cons_append, ← List.append_assoc, ← h, List.take_append_drop]
  rw [hwalk, List.nodup_append, List.nodup_cons] at hnodup
  have hfront : stage ∉ front := fun hst =>
    hnodup.2.2 stage hst stage (List.mem_cons_self ..) rfl
  exact ((List.append_cons_inj_of_notMem hfront hnodup.2.1.1).1 hsplit.symm).1.symm

/-- The builder is told once at most, after the cleaning and before any later stage. -/
theorem builder_position {line' : String} (hending : ∀ line', .builder line' ∉ ending)
    (h : callbacksOf line (Stage.start.walk.take (k + 1)) ++ ending =
      front ++ .builder line' :: back) :
    stagesIn front = [.start, .rootResolved, .preCleaned] ∧ ∀ line', .builder line' ∉ back := by
  have honly (line' : String) (st : Stage) (hst : .builder line' ∈ st.agenda line) :
      st = .preCleaned := by
    cases st <;> simp [Stage.agenda] at hst ⊢
  have hnodup := nodup_walk.sublist (List.take_sublist (k + 1) _)
  obtain ⟨before, after, hstages, hfront, rfl⟩ :=
    callback_position hnodup (by simp) (honly line') (hending line') h
  have hwalk : Stage.start.walk =
      [.start, .rootResolved] ++ .preCleaned :: [.built, .postCleaned, .done] := Stage.walk_start
  rw [before_eq hwalk hstages] at hfront
  refine ⟨hfront, fun line' hlater => ?_⟩
  rw [hstages, List.nodup_append, List.nodup_cons] at hnodup
  rcases List.mem_append.1 hlater with hlater | hlater
  · obtain ⟨st, hst, hevent | hagenda⟩ := mem_callbacksOf.1 hlater
    · cases hevent
    · exact hnodup.2.1.1 (honly line' st hagenda ▸ hst)
  · exact hending line' hlater

/-- The deletion of the generated files is told after the builder has succeeded. -/
theorem tidying_position (hending : .phase "Removing generated sources" ∉ ending)
    (h : callbacksOf line (Stage.start.walk.take (k + 1)) ++ ending =
      front ++ .phase "Removing generated sources" :: back) :
    stagesIn front = [.start, .rootResolved, .preCleaned, .built] := by
  have honly (st : Stage) (hst : .phase "Removing generated sources" ∈ st.agenda line) :
      st = .built := by
    cases st <;> simp [Stage.agenda] at hst ⊢
  have hnodup := nodup_walk.sublist (List.take_sublist (k + 1) _)
  obtain ⟨before, after, hstages, hfront, -⟩ := callback_position hnodup (by simp) honly hending h
  have hwalk : Stage.start.walk =
      [.start, .rootResolved, .preCleaned] ++ .built :: [.postCleaned, .done] := Stage.walk_start
  rwa [before_eq hwalk hstages] at hfront

end Positions

/-- What the callbacks of a build promise, when it has taken `k` steps from the first stage. -/
structure FollowsStages (unlocated : Failure → Prop) (told : List Event) (k : Nat)
    (result : EStateM.Result Failure Session BuildReport) : Prop where
  ok_iff : (∃ report s', result = .ok report s') ↔ k = 5
  error_iff : (∃ f s', result = .error f s') ↔ k ≤ 3
  /-- A success is told last and once, behind the stages that its report lists. -/
  finished : ∀ report s', result = .ok report s' →
    stagesIn told = Stage.start.walk.take (k + 1) ∧ report.stages = stagesIn told ∧
      ∃ front n, told = front ++ [.done n] ∧ ∀ m, .done m ∉ front
  /-- A failure is told last and once, behind the stage whose step has failed. -/
  stopped : ∀ f s', result = .error f s' →
    stagesIn told = Stage.start.walk.take (k + 1) ++ [.failed] ∧
      (∃ front, told = front ++ [.stage .failed] ∧ .stage .failed ∉ front) ∧
      (∀ n, .done n ∉ told) ∧
      ∃ stage, Stage.start.walk[k]? = some stage ∧ stage.MayFailWith unlocated f
  builder : ∀ front line back, told = front ++ .builder line :: back →
    stagesIn front = [.start, .rootResolved, .preCleaned] ∧ ∀ line', .builder line' ∉ back
  tidying : ∀ front back, told = front ++ .phase "Removing generated sources" :: back →
    stagesIn front = [.start, .rootResolved, .preCleaned, .built]

theorem done_not_mem_callbacksOf (n : Nat) (line : String) (stages : List Stage) :
    .done n ∉ callbacksOf line stages := by
  intro hn
  obtain ⟨stage, -, hevent⟩ := mem_callbacksOf.1 hn
  cases stage <;> simp [Stage.agenda] at hevent

section Follows

variable {unlocated : Failure → Prop} {s' : Session}

theorem FollowsStages.of_finished {report : BuildReport} (line : String)
    (hstages : report.stages =
      stagesIn (callbacksOf line Stage.start.walk ++ [.done Stage.start.walk.length])) :
    FollowsStages unlocated (callbacksOf line Stage.start.walk ++ [.done Stage.start.walk.length]) 5
      (.ok report s') := by
  have hwalk : Stage.start.walk = Stage.start.walk.take (5 + 1) := by rw [Stage.walk_start]; rfl
  constructor
  · exact iff_of_true ⟨report, s', rfl⟩ rfl
  · exact iff_of_false (by simp) (by decide)
  · rintro _ _ ⟨⟩
    have hsame : stagesIn (callbacksOf line Stage.start.walk ++ [.done Stage.start.walk.length]) =
        Stage.start.walk := by
      rw [stagesIn_append, stagesIn_callbacksOf]
      exact List.append_nil _
    exact ⟨hsame.trans hwalk, hstages, _, _, rfl,
      fun m => done_not_mem_callbacksOf m line _⟩
  · rintro _ _ ⟨⟩
  · intro front line' back h
    rw [hwalk] at h
    exact builder_position (by simp) h
  · intro front back h
    rw [hwalk] at h
    exact tidying_position (by simp) h

theorem FollowsStages.of_stopped {f : Failure} {k : Nat} (line : String) (hk : k ≤ 3)
    (hsteps : (stagesIn (callbacksOf line (Stage.start.walk.take (k + 1)) ++
      [.stage .failed])).IsChain Stage.LeadsTo)
    (hfailure : ∃ stage, Stage.start.walk[k]? = some stage ∧ stage.MayFailWith unlocated f) :
    FollowsStages unlocated
      (callbacksOf line (Stage.start.walk.take (k + 1)) ++ [.stage .failed]) k (.error f s') := by
  constructor
  · exact iff_of_false (by simp) (by omega)
  · exact iff_of_true ⟨f, s', rfl⟩ hk
  · rintro _ _ ⟨⟩
  · rintro _ _ ⟨⟩
    refine ⟨by rw [stagesIn_append, stagesIn_callbacksOf]; rfl,
      ⟨_, rfl, fun hearlier => ?_⟩, fun n hn => ?_, hfailure⟩
    · rw [stagesIn_append] at hsteps
      have hgoing := Stage.not_terminal_of_isChain hsteps (List.cons_ne_nil _ _) .failed
        (mem_stagesIn.2 hearlier)
      cases hgoing
    rcases List.mem_append.1 hn with hn | hn
    · exact done_not_mem_callbacksOf n line _ hn
    · simp at hn
  · intro front line' back h
    exact builder_position (by simp) h
  · intro front back h
    exact tidying_position (by simp) h

end Follows

/-- A build tells its stages in their order, one for each step that has succeeded, and ends with
    success after the last of them or with the failure of the next step. -/
theorem build_follows_stages (hfind : (find start).ReportsOnly (!·.isCallback)) :
    ∃ told k,
      ((build find start layout builder).ends c s).callbacks = s.callbacks ++ told ∧
        FollowsStages (fun f => ∃ found, (find start).run c s.asking = .error f found) told k
          ((build find start layout builder).run c s) := by
  obtain ⟨walked, hevents, -, hsteps, hreport⟩ :=
    @build_reports_walk find start layout builder c s hfind
  have hstages {told : List Event}
      (htold : ((build find start layout builder).ends c s).callbacks = s.callbacks ++ told) :
      stagesIn walked = stagesIn told := by
    rw [Session.callbacks, hevents, List.filter_append] at htold
    rw [← stagesIn_filter_isCallback walked, List.append_cancel_left htold]
  have hcourse := buildCourse_run c find start layout builder s
  obtain ⟨line, ⟨report, s', hrun, htold⟩ | ⟨k, f, s', hk, hrun, htold, hfailure⟩⟩ :=
    hcourse.told hfind
  · rw [← Work.ends_of_ok hrun] at htold
    refine ⟨_, 5, htold, ?_⟩
    rw [hrun]
    exact .of_finished line ((hreport report s' hrun).trans (hstages htold))
  · rw [← Work.ends_of_error hrun] at htold
    refine ⟨_, k, htold, ?_⟩
    rw [hrun]
    exact .of_stopped line hk (hstages htold ▸ hsteps) hfailure

/-- A builder that exits with 2 ends the build in the third stage. -/
theorem build_follows_stages_to_failed_builder :
    let name := Bytes.ofString
    let c : Context := {
      directory := [name "r"]
      launch := fun t _ => .ok { ending := .exited 2, tree := t, output := [], errors := [] } }
    let s : Session := { tree := FileTree.bare.put (name "r") [] .directory }
    let find := (Locator.given []).root
    ∃ told k,
      FollowsStages (fun f => ∃ found, (find (name "/r")).run c s.asking = .error f found) told k
        ((build find (name "/r") {} {}).run c s) ∧
      told = [.stage .start, .phase "Resolving repository root", .stage .rootResolved,
        .phase "Removing previous build output", .stage .preCleaned,
        .builder "sphinx-build -M html /r/docs /r/docs/_build", .stage .failed] := by
  intro name c s find
  have hfind : (find (name "/r")).ReportsOnly (!·.isCallback) :=
    (Locator.reportsOnly_root _ _).mono not_isCallback_of_isRecord
  have hcallbacks : ((build find (name "/r") {} {}).ends c s).callbacks =
      [.stage .start, .phase "Resolving repository root", .stage .rootResolved,
        .phase "Removing previous build output", .stage .preCleaned,
        .builder "sphinx-build -M html /r/docs /r/docs/_build", .stage .failed] := by
    decide +kernel
  obtain ⟨told, k, htold, hfollows⟩ := @build_follows_stages c find (name "/r") {} {} s hfind
  rw [hcallbacks] at htold
  exact ⟨told, k, hfollows, htold.symm⟩

end DocBuild
