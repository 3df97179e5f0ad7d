import DocBuild.Proofs.Build.Run
import DocBuild.Proofs.Build.Tracking

namespace DocBuild

namespace Session

/-- A build asks for the root of the repository. -/
def asking (s : Session) : Session :=
  s.add [.stage .start, .phase "Resolving repository root"]

/-- A builder is started for a site. -/
def start (s : Session) (builder : BuilderSection) (site : Site) : Session :=
  let line := (builder.command site.sources site.output).line
  s.add [.builder line, .log ⟨.info, .builder, "running documentation builder",
    [("cwd", .text site.root.display), ("command", .text line)]⟩]

/-- A program has run, and its tree is the tree from now on. -/
def take (s : Session) (finished : Completion) : Session :=
  { tree := finished.tree
    events := s.events ++ [.output finished.output, .errors finished.errors] }

/-- A build is over. -/
def finish (s : Session) (site : Site) : Session :=
  s.add [.stage .postCleaned, .stage .done,
    .log ⟨.info, .pipeline, "documentation built", [("output", .text site.output.display)]⟩,
    .done Stage.start.walk.length]

end Session

/-- What the builder of a site is started with. -/
def BuilderSection.launch (b : BuilderSection) (site : Site) : Launch :=
  let command := b.command site.sources site.output
  ⟨command.program, command.arguments, site.root⟩

section

variable {α : Type} {c : Context} {find : RootFinder} {start : Path} {layout : LayoutSection}
  {builder : BuilderSection} {s : Session} {result : EStateM.Result Failure Session BuildReport}

section Steps

variable {k : Tracker} {step : Work α} {s' : Session}

/-- A step that succeeds brings the build to the next stage. -/
theorem run_step_then {β : Type} {next : Stage} {g : α → Tracked β} {a : α}
    (h : step.run c s = .ok a s') (hnext : k.current.next? = some next) :
    (do let a ← step; Tracked.advance; g a : Tracked β).run c (s, k) =
      (g a).run c (s'.enter next, k.enter next) :=
  (Tracked.run_bind_of_ok (Tracked.run_ofWork_of_ok h)).trans
    (Tracked.run_bind_of_ok (Tracked.run_advance_of_next hnext))

/-- After a step that fails, no other begins. -/
theorem run_step_fails {β : Type} {g : α → Tracked β} {f : Failure}
    (h : step.run c s = .error f s') :
    (Tracked.ofWork step >>= g).run c (s, k) = .error f (s', k) :=
  Tracked.run_bind_of_error (Tracked.run_ofWork_of_error h)

/-- A build whose steps fail is abandoned in the stage where they did. -/
theorem run_build_of_error {f : Failure}
    (h : (steps find start layout builder).run c (s.enter .start, {}) = .error f (s', k))
    (hgoing : k.current.isTerminal = false) :
    (build find start layout builder).run c s = .error f (s'.fail k.current f) := by
  have hsteps : (tryCatch (steps find start layout builder) abandon : Tracked _).run c
      (s.enter .start, {}) = .error f (s'.fail k.current f, k.enter .failed) := by
    rw [Tracked.run_tryCatch, h]
    exact Tracked.run_abandon_of_going hgoing
  exact Tracked.run_track_of_error (Tracked.run_bind_of_error hsteps)

theorem run_build_of_ok {site : Site} {removed : List Path} {b : Bool} {next : Stage}
    (h : (steps find start layout builder).run c (s.enter .start, {}) =
      .ok (site, removed, b) (s', k))
    (hnext : k.current.next? = some next) :
    (build find start layout builder).run c s = .ok
      { site, removed, generatedCleaned := b, stages := (k.enter next).walked }
      ((s'.enter next).add
        [.log ⟨.info, .pipeline, "documentation built", [("output", .text site.output.display)]⟩,
          .done (k.enter next).walked.length]) := by
  have hsteps : (tryCatch (steps find start layout builder) abandon : Tracked _).run c
      (s.enter .start, {}) = .ok (site, removed, b) (s', k) := by
    rw [Tracked.run_tryCatch, h]
  exact Tracked.run_track_of_ok ((Tracked.run_bind_of_ok hsteps).trans
    (run_conclude_of_advance (Tracked.run_advance_of_next hnext)))

end Steps

/-- The ways in which a build can go. The sessions between the steps tell the tree that each step
    found and left, and what has been reported so far. -/
inductive BuildCourse (c : Context) (find : RootFinder) (start : Path) (layout : LayoutSection)
    (builder : BuilderSection) (s : Session) :
    EStateM.Result Failure Session BuildReport → Prop where
  | unresolved {f : Failure} {found : Session}
      (hsearch : (searching find start layout).run c (s.enter .start) = .error f found) :
      BuildCourse c find start layout builder s (.error f (found.fail .start f))
  | unswept {site : Site} {f : Failure} {found swept : Session}
      (hsearch : (searching find start layout).run c (s.enter .start) = .ok site found)
      (hsweep : (sweeping site).run c (found.enter .rootResolved) = .error f swept) :
      BuildCourse c find start layout builder s (.error f (swept.fail .rootResolved f))
  | unbuilt {site : Site} {removed : List Path} {f : Failure} {found swept built : Session}
      (hsearch : (searching find start layout).run c (s.enter .start) = .ok site found)
      (hsweep : (sweeping site).run c (found.enter .rootResolved) = .ok removed swept)
      (hbuild : (building builder site).run c (swept.enter .preCleaned) = .error f built) :
      BuildCourse c find start layout builder s (.error f (built.fail .preCleaned f))
  | untidied {site : Site} {removed : List Path} {f : Failure} {found swept built tidied : Session}
      (hsearch : (searching find start layout).run c (s.enter .start) = .ok site found)
      (hsweep : (sweeping site).run c (found.enter .rootResolved) = .ok removed swept)
      (hbuild : (building builder site).run c (swept.enter .preCleaned) = .ok () built)
      (htidy : (tidying site).run c (built.enter .built) = .error f tidied) :
      BuildCourse c find start layout builder s (.error f (tidied.fail .built f))
  | finished {site : Site} {removed : List Path} {generatedCleaned : Bool}
      {found swept built tidied : Session}
      (hsearch : (searching find start layout).run c (s.enter .start) = .ok site found)
      (hsweep : (sweeping site).run c (found.enter .rootResolved) = .ok removed swept)
      (hbuild : (building builder site).run c (swept.enter .preCleaned) = .ok () built)
      (htidy : (tidying site).run c (built.enter .built) = .ok generatedCleaned tidied) :
      BuildCourse c find start layout builder s
        (.ok { site, removed, generatedCleaned, stages := Stage.start.walk } (tidied.finish site))

/-- The steps decide the build. -/
theorem BuildCourse.run_eq (h : BuildCourse c find start layout builder s result) :
    (build find start layout builder).run c s = result := by
  cases h with
  | unresolved hsearch => exact run_build_of_error (run_step_fails hsearch) rfl
  | unswept hsearch hsweep =>
    refine run_build_of_error (k := Tracker.enter {} .rootResolved) ?_ rfl
    exact (run_step_then hsearch rfl).trans (run_step_fails hsweep)
  | unbuilt hsearch hsweep hbuild =>
    refine run_build_of_error (k := (Tracker.enter {} .rootResolved).enter .preCleaned) ?_ rfl
    exact (run_step_then hsearch rfl).trans ((run_step_then hsweep rfl).trans (run_step_fails hbuild))
  | untidied hsearch hsweep hbuild htidy =>
    refine run_build_of_error
      (k := ((Tracker.enter {} .rootResolved).enter .preCleaned).enter .built) ?_ rfl
    exact (run_step_then hsearch rfl).trans ((run_step_then hsweep rfl).trans
      ((run_step_then hbuild rfl).trans (run_step_fails htidy)))
  | finished hsearch hsweep hbuild htidy =>
    refine (run_build_of_ok
      (k := (((Tracker.enter {} .rootResolved).enter .preCleaned).enter .built).enter .postCleaned)
      ((run_step_then hsearch rfl).trans ((run_step_then hsweep rfl).trans
        ((run_step_then hbuild rfl).trans (run_step_then htidy rfl)))) rfl).trans ?_
    simp [Session.finish, Session.enter, Session.add, Tracker.enter, Stage.walk_start]

/-- Every build goes in one of these ways. -/
theorem buildCourse_run (c : Context) (find : RootFinder) (start : Path) (layout : LayoutSection)
    (builder : BuilderSection) (s : Session) :
    BuildCourse c find start layout builder s ((build find start layout builder).run c s) := by
  suffices hsome : ∃ result, BuildCourse c find start layout builder s result by
    obtain ⟨result, hcourse⟩ := hsome
    exact hcourse.run_eq ▸ hcourse
  cases hsearch : (searching find start layout).run c (s.enter .start) with
  | error f found => exact ⟨_, .unresolved hsearch⟩
  | ok site found =>
  cases hsweep : (sweeping site).run c (found.enter .rootResolved) with
  | error f swept => exact ⟨_, .unswept hsearch hsweep⟩
  | ok removed swept =>
  cases hbuild : (building builder site).run c (swept.enter .preCleaned) with
  | error f built => exact ⟨_, .unbuilt hsearch hsweep hbuild⟩
  | ok _ built =>
  cases htidy : (tidying site).run c (built.enter .built) with
  | error f tidied => exact ⟨_, .untidied hsearch hsweep hbuild htidy⟩
  | ok generatedCleaned tidied => exact ⟨_, .finished hsearch hsweep hbuild htidy⟩

theorem Site.resolve_eq_error {root : Path} {f : Failure} (h : Site.resolve root layout = .error f) :
    ∃ m, f = .validation m := by
  have hinner {field value : String} (h : Site.inner? field value = .error f) :
      ∃ m, f = .validation m := by
    unfold Site.inner? at h
    dsimp only at h
    split at h
    · exact ⟨_, (Except.error.inj h).symm⟩
    split at h
    · exact ⟨_, (Except.error.inj h).symm⟩
    · cases h
  have hspare {field : String} {target sources : Path}
      (h : Site.spare field target sources = .error f) : ∃ m, f = .validation m := by
    unfold Site.spare at h
    split at h
    · exact ⟨_, (Except.error.inj h).symm⟩
    · cases h
  unfold Site.resolve at h
  simp only [Sequence.bind_eq_error_iff] at h
  rcases h with h | ⟨_, -, h | ⟨_, -, h | ⟨_, -, h | ⟨_, -, h | ⟨_, -, h⟩⟩⟩⟩⟩
  · exact hinner h
  · exact hinner h
  · exact hinner h
  · exact hspare h
  · exact hspare h
  · cases h

/-- The search is for the root first. -/
theorem run_searching :
    (searching find start layout).run c (s.enter .start) = (do
      let root ← find start
      let site ← Work.ofExcept (Site.resolve root layout)
      Work.log ⟨.info, .pipeline, "repository root resolved", [("root", .text site.root.display)]⟩
      return site : Work Site).run c s.asking := by
  unfold searching findSite
  rw [bind_assoc, Work.run_bind_of_ok (Work.run_report _), bind_assoc]
  simp only [Session.enter, Session.asking, Session.add, List.append_assoc]
  rfl

/-- The root finder fails, or it succeeds with a root that the layout does not suit. -/
theorem run_searching_eq_error {f : Failure} {found : Session}
    (h : (searching find start layout).run c (s.enter .start) = .error f found) :
    (find start).run c s.asking = .error f found ∨
      ∃ root m, (find start).run c s.asking = .ok root found ∧
        Site.resolve root layout = .error f ∧ f = .validation m := by
  rw [run_searching, Work.run_bind_eq_error_iff] at h
  rcases h with hfind | ⟨root, after, hfind, h⟩
  · exact .inl hfind
  cases hsite : Site.resolve root layout with
  | ok site =>
    rw [hsite] at h
    cases h
  | error g =>
    rw [hsite] at h
    cases h
    obtain ⟨m, hm⟩ := Site.resolve_eq_error hsite
    exact .inr ⟨root, m, hfind, hsite, hm⟩

theorem run_removeForced_eq_error {p : Path} {f : Failure} {s' : Session}
    (h : (removeForced p).run c s = .error f s') :
    ∃ e, f = .file p e ∧
      s.tree.removeForced c.obstacles c.directory p = (s'.tree, .error e) := by
  rcases hremoval : s.tree.removeForced c.obstacles c.directory p with ⟨t, e | b⟩
  · rw [run_removeForced_of_error hremoval] at h
    cases h
    exact ⟨e, rfl, rfl⟩
  · obtain ⟨r, hrun⟩ := run_removeForced_of_ok hremoval
    rw [hrun] at h
    cases h

theorem run_removeAll_eq_error {ps : List Path} {f : Failure} {s' : Session}
    (h : (removeAll ps).run c s = .error f s') : ∃ p e, f = .file p e := by
  induction ps generalizing s with
  | nil => cases h
  | cons p ps ih =>
    rw [removeAll, Work.run_bind_eq_error_iff] at h
    rcases h with hfirst | ⟨b, between, -, h⟩
    · obtain ⟨e, rfl, -⟩ := run_removeForced_eq_error hfirst
      exact ⟨p, e, rfl⟩
    · rw [Work.run_bind_eq_error_iff] at h
      rcases h with hrest | ⟨more, after, -, h⟩
      · exact ih hrest
      · cases h

/-- The builder is announced and logged, and then it runs on the tree as it is. -/
theorem run_building {site : Site} :
    (building builder site).run c s =
      match c.launch s.tree (builder.launch site) with
      | .error e => .error (.environment
          s!"failed to spawn `{builder.program}`: {e.message} (is Sphinx installed and on PATH?)")
          (s.start builder site)
      | .ok finished =>
        if finished.ending.success then
          .ok () (((s.start builder site).take finished).add
            [.log ⟨.info, .builder, "documentation builder finished", []⟩])
        else
          .error (.builder builder.program finished.ending.status)
            ((s.start builder site).take finished) := by
  unfold building BuilderSection.run
  rw [Work.run_bind_of_ok (Work.run_report _)]
  dsimp only
  rw [Work.run_bind_of_ok (Work.run_log _), Work.run_bind_of_ok Work.run_read,
    Work.run_bind_of_ok Work.run_tree]
  cases hlaunch : c.launch s.tree (builder.launch site) with
  | error e =>
    simp only [BuilderSection.launch] at hlaunch
    simp [hlaunch, Session.start, Session.add]
  | ok finished =>
    simp only [BuilderSection.launch] at hlaunch
    simp only [hlaunch]
    rw [Work.run_bind_of_ok (Work.run_setTree _), Work.run_bind_of_ok (Work.run_report _),
      Work.run_bind_of_ok (Work.run_report _)]
    split <;> simp [Session.start, Session.take, Session.add]

/-- A builder that succeeds has been launched on the tree as it was, and what it has left is the tree
    from then on. -/
theorem run_building_eq_ok {site : Site} {s' : Session}
    (h : (building builder site).run c s = .ok () s') :
    ∃ finished, c.launch s.tree (builder.launch site) = .ok finished ∧
      finished.ending.success = true ∧ s'.tree = finished.tree := by
  rw [run_building] at h
  split at h
  · cases h
  next finished hlaunch =>
  split at h
  · next hsuccess =>
    obtain ⟨-, rfl⟩ := EStateM.Result.ok.inj h
    exact ⟨finished, hlaunch, hsuccess, rfl⟩
  · cases h

/-- The builder cannot be started, or it does not succeed. -/
theorem run_building_eq_error {site : Site} {f : Failure} {s' : Session}
    (h : (building builder site).run c s = .error f s') :
    (∃ m, f = .environment m) ∨ ∃ program status, f = .builder program status := by
  rw [run_building] at h
  split at h
  · obtain ⟨rfl, -⟩ := EStateM.Result.error.inj h
    exact .inl ⟨_, rfl⟩
  · split at h
    · cases h
    · obtain ⟨rfl, -⟩ := EStateM.Result.error.inj h
      exact .inr ⟨_, _, rfl⟩

end

end DocBuild
