import DocBuild.Proofs.Build.Course
import DocBuild.Proofs.FileTree.Absence

namespace DocBuild

variable {c : Context} {find : RootFinder} {start : Path} {layout : LayoutSection}
  {builder : BuilderSection} {s : Session} {site : Site} {t cleaned : FileTree}

/-- Cleaning a site succeeds on one tree and leaves another. -/
def Site.CleansTo (site : Site) (c : Context) (t cleaned : FileTree) : Prop :=
  ∃ removed events, site.clean.run c { tree := t } = .ok removed { tree := cleaned, events }

/-- A cleaning that succeeds is two removals, and reports those that have found something. -/
theorem Site.run_clean_eq_ok {removed : List Path} {swept : Session}
    (h : site.clean.run c s = .ok removed swept) :
    ∃ between b b', s.tree.removeForced c.obstacles c.directory site.generated = (between, .ok b) ∧
      between.removeForced c.obstacles c.directory site.output = (swept.tree, .ok b') ∧
      removed = (if b then [site.generated] else []) ++ if b' then [site.output] else [] := by
  obtain ⟨b, between, more, hfirst, hrest, rfl⟩ := run_removeAll_cons_eq_ok_iff.1 h
  obtain ⟨b', after, last, hsecond, hnil, rfl⟩ := run_removeAll_cons_eq_ok_iff.1 hrest
  obtain ⟨rfl, rfl⟩ := EStateM.Result.ok.inj hnil
  refine ⟨between.tree, b, b', removeForced_of_run hfirst, removeForced_of_run hsecond, ?_⟩
  cases b <;> rfl

theorem Site.run_clean_of_removals {between : FileTree} {b b' : Bool} (s : Session)
    (hfirst : s.tree.removeForced c.obstacles c.directory site.generated = (between, .ok b))
    (hsecond : between.removeForced c.obstacles c.directory site.output = (cleaned, .ok b')) :
    ∃ removed events, site.clean.run c s = .ok removed { tree := cleaned, events } := by
  obtain ⟨r, hfirst⟩ := run_removeForced_of_ok hfirst
  obtain ⟨r', hsecond⟩ := run_removeForced_of_ok (s := ⟨between, s.events ++ [.log r]⟩) hsecond
  exact ⟨_, _, run_removeAll_cons_eq_ok_iff.2 ⟨b, _, _, hfirst,
    run_removeAll_cons_eq_ok_iff.2 ⟨b', _, _, hsecond, rfl, rfl⟩, rfl⟩⟩

theorem Site.cleansTo_iff : site.CleansTo c t cleaned ↔ ∃ between b b',
    t.removeForced c.obstacles c.directory site.generated = (between, .ok b) ∧
      between.removeForced c.obstacles c.directory site.output = (cleaned, .ok b') := by
  constructor
  · rintro ⟨removed, events, h⟩
    obtain ⟨between, b, b', hfirst, hsecond, -⟩ := Site.run_clean_eq_ok h
    exact ⟨between, b, b', hfirst, hsecond⟩
  · rintro ⟨between, b, b', hfirst, hsecond⟩
    exact Site.run_clean_of_removals { tree := t } hfirst hsecond

theorem Site.cleansTo_of_clean {removed : List Path} {swept : Session}
    (h : site.clean.run c s = .ok removed swept) : site.CleansTo c s.tree swept.tree := by
  obtain ⟨between, b, b', hfirst, hsecond, -⟩ := Site.run_clean_eq_ok h
  exact Site.cleansTo_iff.2 ⟨between, b, b', hfirst, hsecond⟩

/-- Where a cleaning has succeeded, neither directory is found any more. -/
theorem Site.CleansTo.missing (h : site.CleansTo c t cleaned) {p : Path} (hp : p ∈ site.targets) :
    cleaned.entry c.directory .keep p = .error (.system .noEntry) := by
  obtain ⟨between, b, b', hfirst, hsecond⟩ := Site.cleansTo_iff.1 h
  have hgenerated := FileTree.removal_removeForced t c.obstacles c.directory site.generated
  have houtput := FileTree.removal_removeForced between c.obstacles c.directory site.output
  rw [hfirst] at hgenerated
  rw [hsecond] at houtput
  simp only [Site.targets, List.mem_cons, List.not_mem_nil, or_false] at hp
  rcases hp with rfl | rfl
  · exact FileTree.entry_missing_of_partOf houtput.loses.partOf (by decide) hgenerated.missing
  · exact houtput.missing

/-- The root finder and the layout settle on a site. -/
def SettlesOn (c : Context) (find : RootFinder) (start : Path) (layout : LayoutSection) (s : Session)
    (site : Site) : Prop :=
  ∃ root found, (find start).run c s.asking = .ok root found ∧ Site.resolve root layout = .ok site

/-- A search that settles on a site succeeds and leaves the tree of the root finder. -/
theorem run_searching_of_settlesOn (h : SettlesOn c find start layout s site) :
    ∃ found, (searching find start layout).run c (s.enter .start) = .ok site found ∧
      found.tree = (find start).leaves c s.asking := by
  obtain ⟨root, found, hfind, hsite⟩ := h
  rw [run_searching, Work.run_bind_of_ok hfind, hsite, Work.leaves_of_ok hfind]
  exact ⟨_, rfl, rfl⟩

theorem settlesOn_of_run {found : Session}
    (h : (searching find start layout).run c (s.enter .start) = .ok site found) :
    SettlesOn c find start layout s site ∧ found.tree = (find start).leaves c s.asking := by
  rw [run_searching] at h
  obtain ⟨root, after, hfind, hrest⟩ := Work.run_bind_eq_ok_iff.1 h
  obtain ⟨site', resolved, hsite, hlog⟩ := Work.run_bind_eq_ok_iff.1 hrest
  obtain ⟨hresolve, rfl⟩ := Work.run_ofExcept_eq_ok_iff.1 hsite
  obtain ⟨rfl, rfl⟩ := EStateM.Result.ok.inj hlog
  exact ⟨⟨root, resolved, hfind, hresolve⟩, (Work.leaves_of_ok hfind).symm⟩

theorem run_sweeping : (sweeping site).run c s =
    site.clean.run c (s.add [.phase "Removing previous build output"]) := rfl

theorem run_sweeping_of_cleansTo (h : site.CleansTo c s.tree cleaned) :
    ∃ removed swept, (sweeping site).run c s = .ok removed swept ∧ swept.tree = cleaned := by
  obtain ⟨between, b, b', hfirst, hsecond⟩ := Site.cleansTo_iff.1 h
  obtain ⟨removed, events, hrun⟩ := Site.run_clean_of_removals
    (s.add [.phase "Removing previous build output"]) hfirst hsecond
  exact ⟨removed, _, run_sweeping.trans hrun, rfl⟩

theorem cleansTo_of_run {removed : List Path} {swept : Session}
    (h : (sweeping site).run c s = .ok removed swept) : site.CleansTo c s.tree swept.tree := by
  rw [run_sweeping] at h
  have hcleans := Site.cleansTo_of_clean h
  exact hcleans

/-- A failing removal ends the sweep with what it has left. -/
theorem run_sweeping_of_generated_error {e : FileError}
    (h : s.tree.removeForced c.obstacles c.directory site.generated = (t, .error e)) :
    ∃ swept, (sweeping site).run c s = .error (.file site.generated e) swept ∧ swept.tree = t := by
  rw [run_sweeping]
  rw [← s.tree_add [.phase "Removing previous build output"]] at h
  exact ⟨_, run_removeAll_of_error (run_removeForced_of_error h), rfl⟩

theorem run_sweeping_of_output_error {b : Bool} {e : FileError} {between : FileTree}
    (hfirst : s.tree.removeForced c.obstacles c.directory site.generated = (between, .ok b))
    (hsecond : between.removeForced c.obstacles c.directory site.output = (t, .error e)) :
    ∃ swept, (sweeping site).run c s = .error (.file site.output e) swept ∧ swept.tree = t := by
  rw [run_sweeping]
  rw [← s.tree_add [.phase "Removing previous build output"]] at hfirst
  obtain ⟨r, hfirst⟩ := run_removeForced_of_ok hfirst
  have houtput := run_removeForced_of_error
    (s := ⟨between, (s.add [.phase "Removing previous build output"]).events ++ [.log r]⟩) hsecond
  exact ⟨_, (run_removeAll_of_ok hfirst).trans (by rw [run_removeAll_of_error houtput]), rfl⟩

theorem run_tidying : (tidying site).run c s =
    (removeForced site.generated).run c (s.add [.phase "Removing generated sources"]) := rfl

section Launcher

variable {launch : Launcher}

theorem run_bind_congr {α β : Type} {c' : Context} {x : Work α} {g : α → Work β}
    (hx : x.run c' s = x.run c s) (hg : ∀ a s, (g a).run c' s = (g a).run c s) :
    (x >>= g).run c' s = (x >>= g).run c s := by
  cases hrun : x.run c s with
  | error f s' => rw [Work.run_bind_of_error hrun, Work.run_bind_of_error (hx.trans hrun)]
  | ok a s' =>
    rw [Work.run_bind_of_ok hrun, Work.run_bind_of_ok (hx.trans hrun)]
    exact hg a s'

/-- Deletions do not depend on how programs are launched. -/
theorem run_removeForced_congr (p : Path) (s : Session) :
    (removeForced p).run { c with launch } s = (removeForced p).run c s := by
  unfold removeForced
  rw [Work.run_bind_of_ok Work.run_read, Work.run_bind_of_ok Work.run_read]
  refine run_bind_congr (by rw [Work.run_onTree, Work.run_onTree]) fun removed s => ?_
  cases removed <;> rfl

theorem run_removeAll_congr (ps : List Path) (s : Session) :
    (removeAll ps).run { c with launch } s = (removeAll ps).run c s := by
  induction ps generalizing s with
  | nil => rfl
  | cons p ps ih =>
    exact run_bind_congr (run_removeForced_congr p s) fun removed s =>
      run_bind_congr (ih s) fun more s => rfl

theorem run_searching_congr
    (hfind : (find start).run { c with launch } s.asking = (find start).run c s.asking) :
    (searching find start layout).run { c with launch } (s.enter .start) =
      (searching find start layout).run c (s.enter .start) := by
  rw [run_searching, run_searching]
  refine run_bind_congr hfind fun root s => ?_
  cases Site.resolve root layout <;> rfl

theorem run_building_congr
    (hlaunch : launch s.tree (builder.launch site) = c.launch s.tree (builder.launch site)) :
    (building builder site).run { c with launch } s = (building builder site).run c s := by
  simp only [run_building, hlaunch]

/-- A build asks its launcher for the builder only, and only on the tree that a successful cleaning
    has left; so launchers that agree there make the same build. -/
theorem run_build_congr
    (hfind : (find start).run { c with launch } s.asking = (find start).run c s.asking)
    (hlaunch : ∀ site cleaned, SettlesOn c find start layout s site →
      site.CleansTo c ((find start).leaves c s.asking) cleaned →
      launch cleaned (builder.launch site) = c.launch cleaned (builder.launch site)) :
    (build find start layout builder).run { c with launch } s =
      (build find start layout builder).run c s := by
  have hsearching : (searching find start layout).run { c with launch } (s.enter .start) =
      (searching find start layout).run c (s.enter .start) := run_searching_congr hfind
  have hsweeping (site : Site) (s : Session) :
      (sweeping site).run { c with launch } s = (sweeping site).run c s :=
    run_removeAll_congr site.targets (s.add [.phase "Removing previous build output"])
  have htidying (site : Site) (s : Session) :
      (tidying site).run { c with launch } s = (tidying site).run c s :=
    run_removeForced_congr site.generated (s.add [.phase "Removing generated sources"])
  have hbuilding {site : Site} {removed : List Path} {found swept : Session}
      (hsearch : (searching find start layout).run c (s.enter .start) = .ok site found)
      (hsweep : (sweeping site).run c (found.enter .rootResolved) = .ok removed swept) :
      (building builder site).run { c with launch } (swept.enter .preCleaned) =
        (building builder site).run c (swept.enter .preCleaned) := by
    obtain ⟨hsettles, hfound⟩ := settlesOn_of_run hsearch
    have hclean := cleansTo_of_run hsweep
    rw [Session.tree_enter, hfound] at hclean
    exact run_building_congr (hlaunch site _ hsettles hclean)
  have hcourse := buildCourse_run c find start layout builder s
  generalize (build find start layout builder).run c s = result at hcourse ⊢
  cases hcourse with
  | unresolved hsearch => exact (BuildCourse.unresolved (hsearching.trans hsearch)).run_eq
  | unswept hsearch hsweep =>
    exact (BuildCourse.unswept (hsearching.trans hsearch) ((hsweeping _ _).trans hsweep)).run_eq
  | unbuilt hsearch hsweep hbuild =>
    exact (BuildCourse.unbuilt (hsearching.trans hsearch) ((hsweeping _ _).trans hsweep)
      ((hbuilding hsearch hsweep).trans hbuild)).run_eq
  | untidied hsearch hsweep hbuild htidy =>
    exact (BuildCourse.untidied (hsearching.trans hsearch) ((hsweeping _ _).trans hsweep)
      ((hbuilding hsearch hsweep).trans hbuild) ((htidying _ _).trans htidy)).run_eq
  | finished hsearch hsweep hbuild htidy =>
    exact (BuildCourse.finished (hsearching.trans hsearch) ((hsweeping _ _).trans hsweep)
      ((hbuilding hsearch hsweep).trans hbuild) ((htidying _ _).trans htidy)).run_eq

end Launcher

section Endings

variable (hleft : (find start).leaves c s.asking = s.tree)
include hleft

/-- A failing root finder fails the build, on the tree it was started on. -/
theorem run_build_of_unlocated {f : Failure} {found : Session}
    (hfind : (find start).run c s.asking = .error f found) :
    ∃ s', (build find start layout builder).run c s = .error f s' ∧ s'.tree = s.tree := by
  have hsearch : (searching find start layout).run c (s.enter .start) = .error f found := by
    rw [run_searching, Work.run_bind_of_error hfind]
  refine ⟨_, (BuildCourse.unresolved hsearch).run_eq, ?_⟩
  rw [Session.tree_fail, ← hleft, Work.leaves_of_error hfind]

/-- Nothing is touched for a layout that is refused. -/
theorem tree_of_invalid {m : String} {s' : Session}
    (hrun : (build find start layout builder).run c s = .error (.validation m) s') :
    s'.tree = s.tree := by
  have hcourse := buildCourse_run c find start layout builder s
  rw [hrun] at hcourse
  generalize hresult : EStateM.Result.error (Failure.validation m) s' = result at hcourse
  cases hcourse with
  | unresolved hsearch =>
    obtain ⟨rfl, rfl⟩ := EStateM.Result.error.inj hresult
    rw [Session.tree_fail, ← hleft]
    rcases run_searching_eq_error hsearch with hfind | ⟨root, m, hfind, -⟩
    · rw [Work.leaves_of_error hfind]
    · rw [Work.leaves_of_ok hfind]
  | unswept _ hsweep =>
    obtain ⟨rfl, rfl⟩ := EStateM.Result.error.inj hresult
    obtain ⟨p, e, h⟩ := run_removeAll_eq_error (run_sweeping.symm.trans hsweep)
    cases h
  | unbuilt _ _ hbuild =>
    obtain ⟨rfl, rfl⟩ := EStateM.Result.error.inj hresult
    rcases run_building_eq_error hbuild with ⟨m, h⟩ | ⟨program, status, h⟩ <;> cases h
  | untidied _ _ _ htidy =>
    obtain ⟨rfl, rfl⟩ := EStateM.Result.error.inj hresult
    obtain ⟨e, h, -⟩ := run_removeForced_eq_error (run_tidying.symm.trans htidy)
    cases h
  | finished => cases hresult

variable (hsettles : SettlesOn c find start layout s site)
include hsettles

theorem run_searching_settled : ∃ found,
    (searching find start layout).run c (s.enter .start) = .ok site found ∧ found.tree = s.tree := by
  rw [← hleft]
  exact run_searching_of_settlesOn hsettles

/-- A removal that fails before the building fails the build, with what it has left. -/
theorem run_build_of_generated_error {e : FileError}
    (h : s.tree.removeForced c.obstacles c.directory site.generated = (t, .error e)) :
    ∃ s', (build find start layout builder).run c s = .error (.file site.generated e) s' ∧
      s'.tree = t := by
  obtain ⟨found, hsearch, hfound⟩ := run_searching_settled hleft hsettles
  rw [← hfound, ← found.tree_enter .rootResolved] at h
  obtain ⟨swept, hsweep, hswept⟩ := run_sweeping_of_generated_error h
  exact ⟨_, (BuildCourse.unswept hsearch hsweep).run_eq, hswept⟩

theorem run_build_of_output_error {b : Bool} {e : FileError} {between : FileTree}
    (hfirst : s.tree.removeForced c.obstacles c.directory site.generated = (between, .ok b))
    (hsecond : between.removeForced c.obstacles c.directory site.output = (t, .error e)) :
    ∃ s', (build find start layout builder).run c s = .error (.file site.output e) s' ∧
      s'.tree = t := by
  obtain ⟨found, hsearch, hfound⟩ := run_searching_settled hleft hsettles
  rw [← hfound, ← found.tree_enter .rootResolved] at hfirst
  obtain ⟨swept, hsweep, hswept⟩ := run_sweeping_of_output_error hfirst hsecond
  exact ⟨_, (BuildCourse.unswept hsearch hsweep).run_eq, hswept⟩

variable (hcleans : site.CleansTo c s.tree cleaned)
include hcleans

theorem run_sweeping_settled : ∃ removed found swept,
    (searching find start layout).run c (s.enter .start) = .ok site found ∧
      (sweeping site).run c (found.enter .rootResolved) = .ok removed swept ∧
      swept.tree = cleaned := by
  obtain ⟨found, hsearch, hfound⟩ := run_searching_settled hleft hsettles
  rw [← hfound, ← found.tree_enter .rootResolved] at hcleans
  obtain ⟨removed, swept, hsweep, hswept⟩ := run_sweeping_of_cleansTo hcleans
  exact ⟨removed, found, swept, hsearch, hsweep, hswept⟩

/-- A builder that cannot be started leaves the tree as the cleaning has left it. -/
theorem run_build_of_launch_error {e : LaunchError}
    (hlaunch : c.launch cleaned (builder.launch site) = .error e) :
    ∃ m s', (build find start layout builder).run c s = .error (.environment m) s' ∧
      s'.tree = cleaned := by
  obtain ⟨removed, found, swept, hsearch, hsweep, hswept⟩ :=
    run_sweeping_settled hleft hsettles hcleans
  have hbuild : (building builder site).run c (swept.enter .preCleaned) = _ := run_building
  rw [Session.tree_enter, hswept, hlaunch] at hbuild
  exact ⟨_, _, (BuildCourse.unbuilt hsearch hsweep hbuild).run_eq, hswept⟩

/-- A builder that does not succeed has the last word on the tree. -/
theorem run_build_of_failed_builder {finished : Completion}
    (hlaunch : c.launch cleaned (builder.launch site) = .ok finished)
    (hfailed : finished.ending.success = false) :
    ∃ s', (build find start layout builder).run c s =
        .error (.builder builder.program finished.ending.status) s' ∧
      s'.tree = finished.tree := by
  obtain ⟨removed, found, swept, hsearch, hsweep, hswept⟩ :=
    run_sweeping_settled hleft hsettles hcleans
  have hbuild : (building builder site).run c (swept.enter .preCleaned) = _ := run_building
  rw [Session.tree_enter, hswept, hlaunch] at hbuild
  simp only [hfailed, Bool.false_eq_true, if_false] at hbuild
  exact ⟨_, (BuildCourse.unbuilt hsearch hsweep hbuild).run_eq, rfl⟩

/-- After a builder that has succeeded, the last removal can still fail the build. -/
theorem run_build_of_untidied {finished : Completion} {e : FileError}
    (hlaunch : c.launch cleaned (builder.launch site) = .ok finished)
    (hsuccess : finished.ending.success = true)
    (h : finished.tree.removeForced c.obstacles c.directory site.generated = (t, .error e)) :
    ∃ s', (build find start layout builder).run c s = .error (.file site.generated e) s' ∧
      s'.tree = t := by
  obtain ⟨removed, found, swept, hsearch, hsweep, hswept⟩ :=
    run_sweeping_settled hleft hsettles hcleans
  have hbuild : (building builder site).run c (swept.enter .preCleaned) = _ := run_building
  rw [Session.tree_enter, hswept, hlaunch] at hbuild
  simp only [hsuccess, if_true] at hbuild
  obtain ⟨built, hbuilt, hbuild⟩ : ∃ built, built.tree = finished.tree ∧
      (building builder site).run c (swept.enter .preCleaned) = .ok () built := ⟨_, rfl, hbuild⟩
  rw [← hbuilt, ← built.tree_enter .built, ← (built.enter .built).tree_add [.phase _]] at h
  have htidy := run_tidying.trans (run_removeForced_of_error h)
  exact ⟨_, (BuildCourse.untidied hsearch hsweep hbuild htidy).run_eq, rfl⟩

end Endings

/-- What a build does to the tree, when the root finder leaves it alone. -/
structure FailsFast (c : Context) (find : RootFinder) (start : Path) (layout : LayoutSection)
    (builder : BuilderSection) (s : Session) : Prop where
  /-- The builder is asked for once at most, on the tree of a successful cleaning: a launcher that
      answers there as the real one does makes the same build, and any does where there is no such
      tree. -/
  launched : ∀ launch : Launcher,
    (find start).run { c with launch } s.asking = (find start).run c s.asking →
    (∀ site cleaned, SettlesOn c find start layout s site → site.CleansTo c s.tree cleaned →
      launch cleaned (builder.launch site) = c.launch cleaned (builder.launch site)) →
    (build find start layout builder).run { c with launch } s =
      (build find start layout builder).run c s
  /-- On that tree neither directory is found. -/
  missing : ∀ site cleaned, SettlesOn c find start layout s site → site.CleansTo c s.tree cleaned →
    ∀ p ∈ site.targets, cleaned.entry c.directory .keep p = .error (.system .noEntry)
  unlocated : ∀ f found, (find start).run c s.asking = .error f found →
    ∃ s', (build find start layout builder).run c s = .error f s' ∧ s'.tree = s.tree
  invalid : ∀ m s', (build find start layout builder).run c s = .error (.validation m) s' →
    s'.tree = s.tree
  /-- Where the generated files cannot be deleted, nothing else is tried. -/
  unswept : ∀ site t e, SettlesOn c find start layout s site →
    s.tree.removeForced c.obstacles c.directory site.generated = (t, .error e) →
    (∃ s', (build find start layout builder).run c s = .error (.file site.generated e) s' ∧
      s'.tree = t) ∧ ∀ cleaned, ¬ site.CleansTo c s.tree cleaned
  /-- Where the output cannot be deleted, the generated files are gone already. -/
  half_swept : ∀ site between b t e, SettlesOn c find start layout s site →
    s.tree.removeForced c.obstacles c.directory site.generated = (between, .ok b) →
    between.removeForced c.obstacles c.directory site.output = (t, .error e) →
    (∃ s', (build find start layout builder).run c s = .error (.file site.output e) s' ∧
      s'.tree = t) ∧ ∀ cleaned, ¬ site.CleansTo c s.tree cleaned
  unlaunched : ∀ site cleaned e, SettlesOn c find start layout s site →
    site.CleansTo c s.tree cleaned → c.launch cleaned (builder.launch site) = .error e →
    ∃ m s', (build find start layout builder).run c s = .error (.environment m) s' ∧
      s'.tree = cleaned
  unsuccessful : ∀ site cleaned finished, SettlesOn c find start layout s site →
    site.CleansTo c s.tree cleaned → c.launch cleaned (builder.launch site) = .ok finished →
    finished.ending.success = false →
    ∃ s', (build find start layout builder).run c s =
        .error (.builder builder.program finished.ending.status) s' ∧ s'.tree = finished.tree
  untidied : ∀ site cleaned finished t e, SettlesOn c find start layout s site →
    site.CleansTo c s.tree cleaned → c.launch cleaned (builder.launch site) = .ok finished →
    finished.ending.success = true →
    finished.tree.removeForced c.obstacles c.directory site.generated = (t, .error e) →
    ∃ s', (build find start layout builder).run c s = .error (.file site.generated e) s' ∧
      s'.tree = t
  /-- A success leaves the builder's tree without what the path of the generated files names there.
      -/
  finished : ∀ report s', (build find start layout builder).run c s = .ok report s' →
    ∃ cleaned finished, SettlesOn c find start layout s report.site ∧
      report.site.CleansTo c s.tree cleaned ∧
      c.launch cleaned (builder.launch report.site) = .ok finished ∧
      finished.ending.success = true ∧
      ((finished.tree.entry c.directory .keep report.site.generated =
            .error (.system .noEntry) ∧
          report.generatedCleaned = false ∧ s'.tree = finished.tree) ∨
        ∃ l e, finished.tree.entry c.directory .keep report.site.generated = .ok (l, e) ∧
          report.generatedCleaned = true ∧
          (s'.tree.get? l = none ↔
            finished.tree.PassesNothingBelow c.directory report.site.generated l) ∧
          (finished.tree.PassesNothingBelow c.directory report.site.generated l →
            s'.tree = finished.tree.prune l) ∧
          (¬ finished.tree.PassesNothingBelow c.directory report.site.generated l →
            s'.tree = finished.tree.clear l))

/-- A build ends at its first failing step, and its effects on the tree are those of the steps before
    and of what the failing one has done. A build that succeeds leaves what the builder has left
    without the generated files; only where their path leads through themselves, their directory
    stays, emptied. -/
theorem build_fails_fast (hleft : (find start).leaves c s.asking = s.tree) :
    FailsFast c find start layout builder s where
  launched launch hfind hlaunch :=
    run_build_congr hfind fun site cleaned hsettles hcleans =>
      hlaunch site cleaned hsettles (hleft ▸ hcleans)
  missing site cleaned _ hcleans p hp := hcleans.missing hp
  unlocated f found hfind := run_build_of_unlocated hleft hfind
  invalid m s' hrun := tree_of_invalid hleft hrun
  unswept site t e hsettles h := by
    refine ⟨run_build_of_generated_error hleft hsettles h, fun cleaned hcleans => ?_⟩
    obtain ⟨between, b, b', hfirst, -⟩ := Site.cleansTo_iff.1 hcleans
    rw [h] at hfirst
    cases hfirst
  half_swept site between b t e hsettles hfirst hsecond := by
    refine ⟨run_build_of_output_error hleft hsettles hfirst hsecond, fun cleaned hcleans => ?_⟩
    obtain ⟨between', b', b'', hfirst', hsecond'⟩ := Site.cleansTo_iff.1 hcleans
    rw [hfirst] at hfirst'
    cases hfirst'
    rw [hsecond] at hsecond'
    cases hsecond'
  unlaunched site cleaned e hsettles hcleans hlaunch :=
    run_build_of_launch_error hleft hsettles hcleans hlaunch
  unsuccessful site cleaned finished hsettles hcleans hlaunch hfailed :=
    run_build_of_failed_builder hleft hsettles hcleans hlaunch hfailed
  untidied site cleaned finished t e hsettles hcleans hlaunch hsuccess h :=
    run_build_of_untidied hleft hsettles hcleans hlaunch hsuccess h
  finished report s' hrun := by
    have hcourse := buildCourse_run c find start layout builder s
    rw [hrun] at hcourse
    generalize hresult : EStateM.Result.ok report s' = result at hcourse
    cases hcourse with
    | @finished site removed cleaned found swept built tidied hsearch hsweep hbuild htidy =>
      obtain ⟨rfl, rfl⟩ := EStateM.Result.ok.inj hresult
      obtain ⟨hsettles, hfound⟩ := settlesOn_of_run hsearch
      have hcleans := cleansTo_of_run hsweep
      rw [Session.tree_enter, hfound, hleft] at hcleans
      rw [run_building] at hbuild
      split at hbuild
      · cases hbuild
      next finished hlaunch =>
      split at hbuild
      · next hsuccess =>
        obtain ⟨-, rfl⟩ := EStateM.Result.ok.inj hbuild
        rw [run_tidying] at htidy
        have hremoval := FileTree.removal_removeForced finished.tree c.obstacles c.directory
          site.generated
        have hremoved : finished.tree.removeForced c.obstacles c.directory site.generated = _ :=
          removeForced_of_run htidy
        rw [hremoved] at hremoval
        exact ⟨swept.tree, finished, hsettles, hcleans, hlaunch, hsuccess, hremoval.leaves⟩
      · cases hbuild
    | _ => cases hresult

/-- A repository in `/r` with a place for sources in `x`, and generated files elsewhere. -/
def strayTree : FileTree :=
  let name := Bytes.ofString
  let t := (FileTree.bare.put (name "r") [] .directory).put (name "x") [name "r"] .directory
  let t := t.put (name "generated") [name "r"] .directory
  t.put (name "y") [name "generated", name "r"] .directory

/-- The root is reached through generated files that belong to it once the builder has linked the
    sources to the directory above: they are emptied, and their directory stays. -/
theorem build_fails_fast_on_strayTree :
    let name := Bytes.ofString
    let linked := strayTree.put (name "docs") [name "x", name "r"] (.link (name ".."))
    let c : Context := {
      directory := [name "r"]
      launch := fun _ _ => .ok { ending := .exited 0, tree := linked, output := [], errors := [] } }
    let s : Session := { tree := strayTree }
    let find := (Locator.given (name "generated/y/../../x")).root
    let p : Path := name "/r/generated/y/../../x/docs/generated"
    FailsFast c find (name "/r") {} {} s ∧
      ∃ report s', (build find (name "/r") {} {}).run c s = .ok report s' ∧
        report.site.generated = p ∧ report.generatedCleaned = true ∧
        linked.entry c.directory .keep p = .ok ([name "generated", name "r"], .directory) ∧
        s'.tree.get? [name "generated", name "r"] = some .directory := by
  intro name linked c s find p
  have hfast : FailsFast c find (name "/r") {} {} s := build_fails_fast (Locator.leaves_given _ _)
  have hrun : (match (build find (name "/r") {} {}).run c s with
      | .ok report s' => decide (report.site.generated = p ∧ report.generatedCleaned = true ∧
          s'.tree.get? [name "generated", name "r"] = some .directory)
      | .error _ _ => false) = true := by decide +kernel
  have hentry : linked.entry c.directory .keep p =
      .ok ([name "generated", name "r"], .directory) := by rfl
  split at hrun
  · next report s' hbuild =>
    obtain ⟨hsite, hcleaned, hstays⟩ := of_decide_eq_true hrun
    exact ⟨hfast, report, s', hbuild, hsite, hcleaned, hentry, hstays⟩
  · cases hrun

/-- What a successful build does to the tree: the search for the root leaves `found`, the cleaning
    `cleaned`, the builder `built`, and the deletion of the generated files `after`. -/
structure BuildTrace (c : Context) (find : RootFinder) (start : Path) (layout : LayoutSection)
    (builder : BuilderSection) (report : BuildReport)
    (before found cleaned built after : FileTree) : Prop where
  search : ∃ s s' : Session, s.tree = before ∧ s'.tree = found ∧
    (find start).run c s = .ok report.site.root s'
  accepted : Site.resolve report.site.root layout = .ok report.site
  cleaning : ∃ s s' : Session, s.tree = found ∧ s'.tree = cleaned ∧
    report.site.clean.run c s = .ok report.removed s'
  building : ∃ finished : Completion, c.launch cleaned
      ⟨builder.program, (builder.command report.site.sources report.site.output).arguments,
        report.site.root⟩ = .ok finished ∧
    finished.ending.success = true ∧ finished.tree = built
  finishing : built.removeForced c.obstacles c.directory report.site.generated =
    (after, .ok report.generatedCleaned)

theorem BuildTrace.of_run {s' : Session} {report : BuildReport}
    (h : (build find start layout builder).run c s = .ok report s') :
    ∃ cleaned built, BuildTrace c find start layout builder report s.tree
      ((find start).leaves c s.asking) cleaned built s'.tree := by
  have hcourse := buildCourse_run c find start layout builder s
  rw [h] at hcourse
  generalize hresult : EStateM.Result.ok report s' = result at hcourse
  cases hcourse with
  | unresolved | unswept | unbuilt | untidied => cases hresult
  | @finished site removed generatedCleaned found swept built tidied hsearch hsweep hbuild htidy =>
    obtain ⟨rfl, rfl⟩ := EStateM.Result.ok.inj hresult
    obtain ⟨⟨root, answered, hfind, hresolve⟩, hfound⟩ := settlesOn_of_run hsearch
    obtain rfl := Site.root_eq hresolve
    obtain ⟨finished, hlaunch, hsuccess, htree⟩ := run_building_eq_ok hbuild
    have hremoval := removeForced_of_run (run_tidying.symm.trans htidy)
    refine ⟨swept.tree, built.tree, ?_, hresolve, ?_, ?_, hremoval⟩
    · exact ⟨s.asking, answered, rfl, (Work.leaves_of_ok hfind).symm, hfind⟩
    · exact ⟨(found.enter .rootResolved).add [.phase "Removing previous build output"], swept, hfound,
        rfl, run_sweeping.symm.trans hsweep⟩
    · exact ⟨finished, hlaunch, hsuccess, htree.symm⟩

end DocBuild
