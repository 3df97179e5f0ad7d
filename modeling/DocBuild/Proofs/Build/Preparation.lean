import DocBuild.Proofs.Build.Effects

namespace DocBuild

variable {c : Context} {find : RootFinder} {start : Path} {layout : LayoutSection}
  {builder : BuilderSection} {s : Session} {site : Site} {t cleaned : FileTree} {l : Locator}

theorem ignoresReports_removeForced (p : Path) : (removeForced p).IgnoresReports := by
  refine Work.ignoresReports_read.bind fun c => (Work.ignoresReports_onTree _).bind fun removed => ?_
  cases removed <;> exact (Work.ignoresReports_report _).bind fun _ => Work.ignoresReports_pure _

theorem ignoresReports_removeAll (ps : List Path) : (removeAll ps).IgnoresReports := by
  induction ps with
  | nil => exact Work.ignoresReports_pure []
  | cons p ps ih =>
    exact (ignoresReports_removeForced p).bind fun removed => ih.bind fun more =>
      Work.ignoresReports_pure _

theorem Site.ignoresReports_clean (site : Site) : site.clean.IgnoresReports :=
  ignoresReports_removeAll site.targets

theorem ignoresReports_findSite (hfind : (find start).IgnoresReports) :
    (findSite find start layout).IgnoresReports :=
  (Work.ignoresReports_report _).bind fun _ => hfind.bind fun _ => Work.ignoresReports_ofExcept _

theorem effect_findSite (hfind : (find start).IgnoresReports) :
    (findSite find start layout).effect c s =
      match (find start).effect c s with
      | (t, .ok root) => (t, Site.resolve root layout)
      | (t, .error f) => (t, .error f) := by
  unfold findSite
  rw [Work.effect_bind_of_ok (Work.run_report _),
    Work.effect_bind fun _ => Work.ignoresReports_ofExcept _,
    hfind c { s with events := s.events ++ [.phase "Resolving repository root"] } s rfl]
  rcases (find start).effect c s with ⟨found, f | root⟩
  · rfl
  · dsimp only
    cases Site.resolve root layout <;> rfl

/-- The command for cleaning finds the site and cleans it. -/
theorem effect_clean : (clean find start layout).effect c s =
    match (findSite find start layout).effect c s with
    | (t, .ok site) =>
      match site.clean.effect c { tree := t } with
      | (t, .ok removed) => (t, .ok (site, removed))
      | (t, .error f) => (t, .error f)
    | (t, .error f) => (t, .error f) := by
  unfold clean
  cases hfound : (findSite find start layout).run c s with
  | error f found => rw [Work.effect_bind_of_error hfound, Work.effect_of_error hfound]
  | ok site found =>
    have hclean (events : List Event) : site.clean.effect c { tree := found.tree, events } =
        site.clean.effect c { tree := found.tree } := site.ignoresReports_clean c _ _ rfl
    rw [Work.effect_bind_of_ok hfound, Work.effect_of_ok hfound,
      Work.effect_bind_of_ok (Work.run_report _), Work.effect_then_log, hclean]
    dsimp only
    rcases site.clean.effect c { tree := found.tree } with ⟨cleaned, f | removed⟩ <;> rfl

theorem effect_searching (hfind : (find start).IgnoresReports) :
    (searching find start layout).effect c (s.enter .start) =
      (findSite find start layout).effect c s := by
  rw [← ignoresReports_findSite hfind c (s.enter .start) s rfl]
  unfold searching
  rw [Work.effect_then_log]
  rcases (findSite find start layout).effect c (s.enter .start) with ⟨found, f | site⟩ <;> rfl

theorem effect_sweeping {stage : Stage} :
    (sweeping site).effect c (s.enter stage) = site.clean.effect c { tree := s.tree } := by
  unfold sweeping
  rw [Work.effect_bind_of_ok (Work.run_report _)]
  exact site.ignoresReports_clean c _ _ rfl

section Steps

variable {removed : List Path} {f : Failure} {found swept built : Session}
  (hfind : (find start).IgnoresReports)
include hfind

theorem effect_clean_of_unresolved
    (hsearch : (searching find start layout).run c (s.enter .start) = .error f found) :
    (clean find start layout).effect c s = (found.tree, .error f) := by
  rw [effect_clean, ← effect_searching hfind, Work.effect_of_error hsearch]

variable (hsearch : (searching find start layout).run c (s.enter .start) = .ok site found)
include hsearch

theorem effect_clean_of_unswept
    (hsweep : (sweeping site).run c (found.enter .rootResolved) = .error f swept) :
    (clean find start layout).effect c s = (swept.tree, .error f) := by
  rw [effect_clean, ← effect_searching hfind, Work.effect_of_ok hsearch]
  dsimp only
  rw [← effect_sweeping, Work.effect_of_error hsweep]

/-- The first two steps of a build are a cleaning. -/
theorem effect_clean_of_swept
    (hsweep : (sweeping site).run c (found.enter .rootResolved) = .ok removed swept) :
    (clean find start layout).effect c s = (swept.tree, .ok (site, removed)) := by
  rw [effect_clean, ← effect_searching hfind, Work.effect_of_ok hsearch]
  dsimp only
  rw [← effect_sweeping, Work.effect_of_ok hsweep]

end Steps

/-- The failure of a build whose builder cannot be started. -/
def BuilderSection.unstarted (b : BuilderSection) (e : LaunchError) : Failure :=
  .environment
    (s!"failed to spawn `{b.program}`: " ++ e.message ++ " (is Sphinx installed and on PATH?)")

/-- What becomes of a build when its cleaning has left a tree: the builder is launched there, and if
    it succeeds, the generated files are removed from what it has left. -/
def BuilderSection.conclusion (b : BuilderSection) (c : Context) (site : Site)
    (removed : List Path) (cleaned : FileTree) : FileTree × Except Failure BuildReport :=
  match c.launch cleaned (b.launch site) with
  | .error e => (cleaned, .error (b.unstarted e))
  | .ok finished =>
    if finished.ending.success then
      match finished.tree.removeForced c.obstacles c.directory site.generated with
      | (t, .ok generatedCleaned) =>
        (t, .ok { site, removed, generatedCleaned, stages := Stage.start.walk })
      | (t, .error e) => (t, .error (.file site.generated e))
    else (finished.tree, .error (.builder b.program finished.ending.status))

section Conclusion

variable {removed : List Path} {f : Failure} {built : Session}

theorem BuilderSection.conclusion_of_launch_error {e : LaunchError}
    (h : c.launch cleaned (builder.launch site) = .error e) :
    builder.conclusion c site removed cleaned = (cleaned, .error (builder.unstarted e)) := by
  rw [conclusion, h]

theorem BuilderSection.conclusion_of_unbuilt
    (h : (building builder site).run c s = .error f built) :
    builder.conclusion c site removed s.tree = (built.tree, .error f) := by
  rw [run_building] at h
  split at h
  · next hlaunch =>
    obtain ⟨rfl, rfl⟩ := EStateM.Result.error.inj h
    exact conclusion_of_launch_error hlaunch
  · next finished hlaunch =>
    split at h
    · cases h
    · next hfailed =>
      obtain ⟨rfl, rfl⟩ := EStateM.Result.error.inj h
      rw [conclusion, hlaunch]
      exact if_neg hfailed

theorem BuilderSection.conclusion_of_built
    (h : (building builder site).run c s = .ok () built) :
    builder.conclusion c site removed s.tree =
      match built.tree.removeForced c.obstacles c.directory site.generated with
      | (t, .ok generatedCleaned) =>
        (t, .ok { site, removed, generatedCleaned, stages := Stage.start.walk })
      | (t, .error e) => (t, .error (.file site.generated e)) := by
  rw [run_building] at h
  split at h
  · cases h
  · next finished hlaunch =>
    split at h
    · next hsuccess =>
      obtain ⟨-, rfl⟩ := EStateM.Result.ok.inj h
      rw [conclusion, hlaunch]
      exact if_pos hsuccess
    · cases h

end Conclusion

/-- A build is a cleaning and what follows from it. -/
theorem effect_build (hfind : (find start).IgnoresReports) :
    (build find start layout builder).effect c s =
      match (clean find start layout).effect c s with
      | (t, .ok (site, removed)) => builder.conclusion c site removed t
      | (t, .error f) => (t, .error f) := by
  have hcourse := buildCourse_run c find start layout builder s
  generalize hrun : (build find start layout builder).run c s = result at hcourse
  cases hcourse with
  | unresolved hsearch =>
    rw [Work.effect_of_error hrun, effect_clean_of_unresolved hfind hsearch]
    rfl
  | unswept hsearch hsweep =>
    rw [Work.effect_of_error hrun, effect_clean_of_unswept hfind hsearch hsweep]
    rfl
  | unbuilt hsearch hsweep hbuild =>
    rw [Work.effect_of_error hrun, effect_clean_of_swept hfind hsearch hsweep]
    exact (BuilderSection.conclusion_of_unbuilt hbuild).symm
  | untidied hsearch hsweep hbuild htidy =>
    rw [Work.effect_of_error hrun, effect_clean_of_swept hfind hsearch hsweep]
    obtain ⟨e, rfl, hremoval⟩ := run_removeForced_eq_error (run_tidying.symm.trans htidy)
    rw [Session.tree_add, Session.tree_enter] at hremoval
    refine Eq.trans ?_ (BuilderSection.conclusion_of_built hbuild).symm
    rw [hremoval]
    rfl
  | finished hsearch hsweep hbuild htidy =>
    rw [Work.effect_of_ok hrun, effect_clean_of_swept hfind hsearch hsweep]
    have hremoval := removeForced_of_run (run_tidying.symm.trans htidy)
    rw [Session.tree_add, Session.tree_enter] at hremoval
    refine Eq.trans ?_ (BuilderSection.conclusion_of_built hbuild).symm
    rw [hremoval]
    rfl

theorem effect_build_of_clean_error {f : Failure} (hfind : (find start).IgnoresReports)
    (hclean : (clean find start layout).effect c s = (t, .error f)) :
    (build find start layout builder).effect c s = (t, .error f) := by
  rw [effect_build hfind, hclean]

theorem effect_build_of_clean_ok {removed : List Path} (hfind : (find start).IgnoresReports)
    (hclean : (clean find start layout).effect c s = (cleaned, .ok (site, removed))) :
    (build find start layout builder).effect c s =
      builder.conclusion c site removed cleaned := by
  rw [effect_build hfind, hclean]

theorem ignoresReports_clean (hfind : (find start).IgnoresReports) :
    (clean find start layout).IgnoresReports := by
  intro c s s' htree
  rw [effect_clean, effect_clean, ignoresReports_findSite hfind c s s' htree]

theorem ignoresReports_build (hfind : (find start).IgnoresReports) :
    (build find start layout builder).IgnoresReports := by
  intro c s s' htree
  rw [effect_build hfind, effect_build hfind, ignoresReports_clean hfind c s s' htree]

namespace Locator

variable {launch : Launcher} {kind : FileTree → Launch → Prop} {q : Launch} {e : LaunchError}

/-- What a locator asks is no request for a builder. -/
theorem request?_ne_launch (hq : l.request? start = some q) : builder.launch site ≠ q := by
  cases l with
  | given root => cases hq
  | asked program =>
    obtain rfl := Option.some.inj hq
    intro h
    have harguments := congrArg (·.arguments.length) h
    simp [question, BuilderSection.launch, BuilderSection.command] at harguments
    omega

/-- A cleaning asks the launcher nothing but what its locator asks. -/
theorem run_clean_congr
    (h : ∀ q, l.request? start = some q → launch s.tree q = c.launch s.tree q) :
    (clean l.root start layout).run { c with launch } s = (clean l.root start layout).run c s := by
  unfold clean findSite
  refine run_bind_congr ?_ fun site s => ?_
  · rw [Work.run_bind_of_ok (Work.run_report _), Work.run_bind_of_ok (Work.run_report _)]
    refine run_bind_congr (l.run_root_congr h) fun root s => ?_
    cases Site.resolve root layout <;> rfl
  · rw [Work.run_bind_of_ok (Work.run_report _), Work.run_bind_of_ok (Work.run_report _)]
    exact run_bind_congr (run_removeAll_congr site.targets _) fun removed s => rfl

/-- Where the locator's request is refused, nothing is done and the failure tells of the refusal. -/
theorem effect_clean_of_refused (hq : l.request? start = some q) :
    (clean l.root start layout).effect
      { c with launch := c.launch.refusing s.tree q e } s =
        (s.tree, .error (.environment
          (s!"failed to run `{q.program}`: " ++ e.message ++ " (is it installed and on PATH?)"))) := by
  cases l with
  | given root => cases hq
  | asked program =>
    obtain rfl := Option.some.inj hq
    rw [effect_clean, effect_findSite ((asked program).ignoresReports_root start),
      effect_asked_of_launch_error Launcher.refusing_self]

/-- A cleaning makes the request of its locator, on the tree it begins with, and no other. -/
theorem requests_clean_iff : (clean l.root start layout).Requests c s kind ↔
    ∃ q, l.request? start = some q ∧ kind s.tree q := by
  constructor
  · rintro ⟨launch, hlaunch, hother⟩
    refine Classical.byContradiction fun hnone => hother (run_clean_congr fun q hq => ?_)
    exact hlaunch s.tree q fun hkind => hnone ⟨q, hq, hkind⟩
  · rintro ⟨q, hq, hkind⟩
    exact Work.requests_of_refusals hkind fun e => ⟨s.tree, effect_clean_of_refused hq⟩

/-- A build makes the request of its locator and, where a cleaning succeeds, the one for the builder
    on the tree that the cleaning leaves. It makes no other. -/
theorem requests_build_iff : (build l.root start layout builder).Requests c s kind ↔
    (∃ q, l.request? start = some q ∧ kind s.tree q) ∨
      ∃ site removed cleaned, (clean l.root start layout).effect c s = (cleaned, .ok (site, removed)) ∧
        kind cleaned (builder.launch site) := by
  constructor
  · rintro ⟨launch, hlaunch, hother⟩
    refine Classical.byContradiction fun hnone => hother (run_build_congr ?_ ?_)
    · refine l.run_root_congr fun q hq => hlaunch s.tree q fun hkind => hnone (.inl ⟨q, hq, hkind⟩)
    · intro site cleaned hsettles hcleans
      refine hlaunch cleaned _ fun hkind => hnone (.inr ?_)
      obtain ⟨found, hsearch, hfound⟩ := run_searching_of_settlesOn hsettles
      rw [← hfound, ← found.tree_enter .rootResolved] at hcleans
      obtain ⟨removed, swept, hsweep, rfl⟩ := run_sweeping_of_cleansTo hcleans
      exact ⟨site, removed, swept.tree,
        effect_clean_of_swept (l.ignoresReports_root start) hsearch hsweep, hkind⟩
  · rintro (⟨q, hq, hkind⟩ | ⟨site, removed, cleaned, hclean, hkind⟩)
    · exact Work.requests_of_refusals hkind fun e => ⟨s.tree,
        effect_build_of_clean_error (l.ignoresReports_root start) (effect_clean_of_refused hq)⟩
    · have hunstarted (e : LaunchError) : (build l.root start layout builder).effect
          { c with launch := c.launch.refusing cleaned (builder.launch site) e } s =
            (cleaned, .error (builder.unstarted e)) := by
        have hsame : (clean l.root start layout).effect
            { c with launch := c.launch.refusing cleaned (builder.launch site) e } s =
              (clean l.root start layout).effect c s := Work.effect_congr <| run_clean_congr fun q hq =>
          Launcher.refusing_of_ne (request?_ne_launch hq).symm
        rw [effect_build_of_clean_ok (l.ignoresReports_root start) (hsame.trans hclean)]
        exact BuilderSection.conclusion_of_launch_error Launcher.refusing_self
      exact Work.requests_of_refusals hkind fun e => ⟨cleaned, hunstarted e⟩

end Locator
end DocBuild
