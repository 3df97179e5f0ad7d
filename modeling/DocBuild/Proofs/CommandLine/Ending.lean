import DocBuild.Proofs.Build.Protocol
import DocBuild.Proofs.CommandLine.Use

namespace DocBuild

/-- The status of the builder is passed on as long as it is one of a failure that fits a byte. -/
theorem Failure.exitStatus_builder {program : String} {status : Nat} (hfails : 1 ≤ status)
    (hfits : status ≤ 255) : (Failure.builder program status).exitStatus = status := by
  have hrange : 1 ≤ (status : Int) ∧ (status : Int) ≤ 255 := by omega
  rw [exitStatus, if_pos hrange, Int.toNat_natCast]

section

variable {c : Context} {s : Session} {start : Path} {layout : LayoutSection} {site : Site}
  {t : FileTree} {f : Failure}

theorem Locator.isBuilder_of_effect_root {l : Locator}
    (h : (l.root start).effect c s = (t, .error f)) : f.isBuilder = false := by
  cases l with
  | given root =>
    rw [Work.effect, run_given] at h
    split at h
    · next hrun =>
      split at hrun
      · cases h
      · cases hrun
    · next hrun =>
      split at hrun
      · cases hrun
      · cases hrun
        cases h
        rfl
  | asked program =>
    cases hlaunch : c.launch s.tree ⟨program, question, start⟩ with
    | error e =>
      rw [effect_asked_of_launch_error hlaunch] at h
      cases h
      rfl
    | ok finished =>
      rw [effect_asked_of_launch_ok hlaunch, verdict] at h
      have hverdict := (Prod.mk.inj h).2
      split at hverdict
      · split at hverdict
        · cases hverdict
        · cases hverdict
          rfl
      · cases hverdict
        rfl

/-- A cleaning that fails has not run the builder. -/
theorem Locator.isBuilder_of_effect_clean {l : Locator}
    (h : (clean l.root start layout).effect c s = (t, .error f)) : f.isBuilder = false := by
  rw [effect_clean, effect_findSite (l.ignoresReports_root start)] at h
  rcases hroot : (l.root start).effect c s with ⟨found, g | root⟩
  · rw [hroot] at h
    cases h
    exact isBuilder_of_effect_root hroot
  rw [hroot] at h
  dsimp only at h
  cases hsite : Site.resolve root layout with
  | error g =>
    rw [hsite] at h
    cases h
    obtain ⟨m, rfl⟩ := Site.resolve_eq_error hsite
    rfl
  | ok site =>
    rw [hsite] at h
    dsimp only at h
    rcases hclean : site.clean.effect c { tree := found } with ⟨swept, g | removed⟩
    · rw [hclean] at h
      cases h
      obtain ⟨after, hrun, -⟩ := Work.effect_eq_error_iff.1 hclean
      obtain ⟨p, e, rfl⟩ := run_removeAll_eq_error hrun
      rfl
    · rw [hclean] at h
      cases h

end

namespace CommandLine

variable {v : Variables} {r : Request} {c : Context} {t : FileTree} {s : Settings} {site : Site}
  {finished : Completion}

/-- A site is made ready for the builder: the settings can be read, the working directory is there, the
    root is found, the layout suits it, and the site is cleaned. -/
structure Request.Prepares (r : Request) (v : Variables) (c : Context) (t : FileTree) (s : Settings)
    (site : Site) (swept : FileTree) : Prop where
  configured : ∃ base, Settings.configured t c.directory r.options.config v.home = .ok base ∧
    s = base.withBuilder r.options.sphinx
  directory : t.isDirectory c.directory = true
  cleaned : ∃ found removed,
    ((r.locator s).root c.directory.path).effect c { tree := t } = (found, .ok site.root) ∧
    Site.resolve site.root s.layout = .ok site ∧
    site.clean.effect c { tree := found } = (swept, .ok removed)

/-- The builder runs: it can be started for the site that was made ready. -/
def Request.Runs (r : Request) (v : Variables) (c : Context) (t : FileTree) (s : Settings)
    (site : Site) (finished : Completion) : Prop :=
  ∃ swept, r.Prepares v c t s site swept ∧ c.launch swept (s.builder.launch site) = .ok finished

/-- Every step succeeds: the builder runs and exits with 0, and what it has generated is deleted. -/
def Request.Succeeds (r : Request) (v : Variables) (c : Context) (t : FileTree) : Prop :=
  ∃ s site finished, r.Runs v c t s site finished ∧ finished.ending = .exited 0 ∧
    ∃ left b, finished.tree.removeForced c.obstacles c.directory site.generated = (left, .ok b)

/-- The builder runs and does not exit with 0. -/
def Request.BuilderFails (r : Request) (v : Variables) (c : Context) (t : FileTree) : Prop :=
  ∃ s site finished, r.Runs v c t s site finished ∧ finished.ending ≠ .exited 0

theorem Request.Prepares.unique {s' : Settings} {site' : Site} {swept swept' : FileTree}
    (h : r.Prepares v c t s site swept) (h' : r.Prepares v c t s' site' swept') :
    s = s' ∧ site = site' ∧ swept = swept' := by
  obtain ⟨⟨base, hbase, rfl⟩, -, found, removed, hroot, hsite, hsweep⟩ := h
  obtain ⟨⟨base', hbase', rfl⟩, -, found', removed', hroot', hsite', hsweep'⟩ := h'
  rw [hbase] at hbase'
  obtain rfl := Except.ok.inj hbase'
  have hclean := Locator.effect_clean_of_root hroot hsite hsweep
  rw [Locator.effect_clean_of_root hroot' hsite' hsweep'] at hclean
  obtain ⟨rfl, hresult⟩ := Prod.mk.inj hclean
  obtain ⟨rfl, -⟩ := Prod.mk.inj (Except.ok.inj hresult)
  exact ⟨rfl, rfl, rfl⟩

/-- There is one run of the builder at most. -/
theorem Request.Runs.unique {s' : Settings} {site' : Site} {finished' : Completion}
    (h : r.Runs v c t s site finished) (h' : r.Runs v c t s' site' finished') :
    s = s' ∧ site = site' ∧ finished = finished' := by
  obtain ⟨swept, hprepares, hlaunch⟩ := h
  obtain ⟨swept', hprepares', hlaunch'⟩ := h'
  obtain ⟨rfl, rfl, rfl⟩ := hprepares.unique hprepares'
  rw [hlaunch] at hlaunch'
  exact ⟨rfl, rfl, Except.ok.inj hlaunch'⟩

/-- The ways in which a build can end. -/
inductive Request.Ends (r : Request) (v : Variables) (c : Context) (t : FileTree) :
    Except Failure (Except SystemError Summary) → Prop where
  /-- Something has failed before the builder could run. -/
  | stopped {f : Failure} (hkind : f.isBuilder = false)
      (hnever : ∀ s site finished, ¬ r.Runs v c t s site finished) : Ends r v c t (.error f)
  /-- The working directory is gone. -/
  | lost (hgone : t.isDirectory c.directory = false) : Ends r v c t (.ok (.error .noEntry))
  | unbuilt {s : Settings} {site : Site} {finished : Completion}
      (hruns : r.Runs v c t s site finished) (hending : finished.ending ≠ .exited 0) :
      Ends r v c t (.error (.builder s.builder.program finished.ending.status))
  | untidied {s : Settings} {site : Site} {finished : Completion} {left : FileTree} {e : FileError}
      (hruns : r.Runs v c t s site finished) (hending : finished.ending = .exited 0)
      (htidy : finished.tree.removeForced c.obstacles c.directory site.generated =
        (left, .error e)) : Ends r v c t (.error (.file site.generated e))
  | finished {report : BuildReport} {format : String} (hsuccess : r.Succeeds v c t) :
      Ends r v c t (.ok (.ok (.built report format)))

theorem success_iff {ending : Ending} : ending.success = true ↔ ending = .exited 0 :=
  decide_eq_true_iff

/-- What follows from a cleaning ends the build. -/
theorem Request.Prepares.ends {removed : List Path} {swept : FileTree}
    (h : r.Prepares v c t s site swept) :
    r.Ends v c t ((s.builder.conclusion c site removed swept).2.map
      fun report => .ok (.built report s.builder.format)) := by
  unfold BuilderSection.conclusion
  cases hlaunch : c.launch swept (s.builder.launch site) with
  | error e =>
    refine .stopped rfl fun s' site' finished' hruns => ?_
    obtain ⟨swept', hprepares, hlaunch'⟩ := hruns
    obtain ⟨rfl, rfl, rfl⟩ := h.unique hprepares
    rw [hlaunch] at hlaunch'
    cases hlaunch'
  | ok finished =>
    have hruns : r.Runs v c t s site finished := ⟨swept, h, hlaunch⟩
    dsimp only
    by_cases hsuccess : finished.ending = .exited 0
    · rw [if_pos (success_iff.2 hsuccess)]
      rcases htidy : finished.tree.removeForced c.obstacles c.directory site.generated with
        ⟨left, e | b⟩
      · exact .untidied hruns hsuccess htidy
      · exact .finished ⟨s, site, finished, hruns, hsuccess, left, b, htidy⟩
    · rw [if_neg (mt success_iff.1 hsuccess)]
      exact .unbuilt hruns hsuccess

/-- Every build ends in one of these ways. -/
theorem Request.ends (hbuild : r.action = .build) :
    r.Ends v c t ((r.perform v).effect c { tree := t }).2 := by
  have haction : r.action ≠ .initSettings := by simp [hbuild]
  cases hbase : Settings.configured t c.directory r.options.config v.home with
  | error f =>
    rw [(fails_of_configured haction hbase).1]
    refine .stopped (Settings.isBuilder_of_configured hbase) ?_
    rintro s site finished ⟨swept, ⟨⟨base, hbase', -⟩, -⟩, -⟩
    rw [hbase] at hbase'
    cases hbase'
  | ok base =>
    obtain ⟨session, rfl, heffect, -⟩ := perform_of_configured haction hbase
    have hcommand (s : Settings) : r.command s = r.build s := by rw [command, hbuild]
    rw [heffect, hcommand, effect_build]
    cases hthere : session.tree.isDirectory c.directory with
    | false => exact .lost hthere
    | true =>
    rw [if_pos rfl, DocBuild.effect_build (Locator.ignoresReports_root _ _)]
    rcases hclean : (DocBuild.clean (r.locator (base.withBuilder r.options.sphinx)).root
      c.directory.path (base.withBuilder r.options.sphinx).layout).effect c
      { tree := session.tree } with ⟨swept, f | ⟨site, removed⟩⟩
    · refine .stopped (Locator.isBuilder_of_effect_clean hclean) ?_
      rintro s site finished
        ⟨swept, ⟨⟨base', hbase', rfl⟩, -, found, removed, hroot, hsite, hsweep⟩, -⟩
      rw [hbase] at hbase'
      obtain rfl := Except.ok.inj hbase'
      rw [Locator.effect_clean_of_root hroot hsite hsweep] at hclean
      cases hclean
    · obtain ⟨found, hroot, hsite, hsweep⟩ := Locator.effect_clean_eq_ok hclean
      exact Prepares.ends ⟨⟨base, hbase, rfl⟩, hthere, found, removed, hroot, hsite, hsweep⟩

/-- Settings that are read are the stored ones with the named builder; the tree is as before, and no
    builder has been announced. -/
theorem Request.run_settings_eq_ok {session : Session}
    (hsettings : (r.settings v).run c { tree := t } = .ok s session) :
    session.tree = t ∧ (∀ line, .builder line ∉ session.events) ∧
      ∃ base, Settings.configured t c.directory r.options.config v.home = .ok base ∧
        s = base.withBuilder r.options.sphinx := by
  have heffect := Work.effect_of_ok hsettings
  rw [effect_settings] at heffect
  obtain ⟨htree, hread⟩ := Prod.mk.inj heffect
  obtain ⟨new, hnew, hrecords⟩ := (r.reportsOnly_settings v).of_ok hsettings
  refine ⟨htree.symm, fun line hline => ?_, ?_⟩
  · rw [hnew, List.nil_append] at hline
    cases List.all_eq_true.1 hrecords _ hline
  · cases hbase : Settings.configured t c.directory r.options.config v.home with
    | error f =>
      rw [hbase] at hread
      cases hread
    | ok base =>
      rw [hbase] at hread
      exact ⟨base, rfl, (Except.ok.inj hread).symm⟩

/-- A builder is announced only for a site that was made ready. -/
theorem Request.prepares_of_announced (hbuild : r.action = .build) {line : String}
    (hline : .builder line ∈ ((r.perform v).ends c { tree := t }).events) :
    ∃ s site swept, r.Prepares v c t s site swept ∧
      line = (s.builder.command site.sources site.output).line := by
  rw [perform_eq (by simp [hbuild])] at hline
  cases hsettings : (r.settings v).run c { tree := t } with
  | error f session =>
    obtain ⟨new, hnew, hrecords⟩ := (r.reportsOnly_settings v).of_error hsettings
    rw [Work.ends_bind_of_error hsettings, hnew, List.nil_append] at hline
    cases List.all_eq_true.1 hrecords _ hline
  | ok s session =>
  obtain ⟨rfl, hnew, hconfigured⟩ := run_settings_eq_ok hsettings
  have hcommand : r.command s = r.build s := by rw [command, hbuild]
  rw [Work.ends_bind_of_ok hsettings, hcommand, build] at hline
  cases hthere : session.tree.isDirectory c.directory with
  | false =>
    rw [Work.ends_of_ok (run_inDirectory_of_gone hthere)] at hline
    exact absurd hline (hnew line)
  | true =>
  have hfind : ((r.locator s).root c.directory.path).ReportsOnly (!·.isCallback) :=
    (Locator.reportsOnly_root _ _).mono not_isCallback_of_isRecord
  rw [Work.ends, run_inDirectory_of_there hthere, ← Work.ends, Work.ends_then_return,
    Work.ends_bind_of_ok (Work.run_log _), Work.ends_then_return] at hline
  obtain ⟨site, removed, found, swept, hsearch, hsweep, rfl⟩ :=
    announced_of_build hfind (by simpa using hnew line) hline
  have hignores := (r.locator s).ignoresReports_root c.directory.path
  have hclean := effect_clean_of_swept hignores hsearch hsweep
  obtain ⟨left, hroot, hsite, hswept⟩ := Locator.effect_clean_eq_ok hclean
  have hroot' : ((r.locator s).root c.directory.path).effect c { tree := session.tree } =
      (left, .ok site.root) := by
    rw [← hroot]
    exact hignores c _ _ rfl
  exact ⟨s, site, swept.tree, ⟨hconfigured, hthere, left, removed, hroot', hsite, hswept⟩, rfl⟩

end CommandLine
end DocBuild
