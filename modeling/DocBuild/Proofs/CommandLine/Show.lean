import DocBuild.CommandLine.Run
import DocBuild.Proofs.Settings.RoundTrip
import DocBuild.Proofs.Work.Reports

namespace DocBuild.Settings

variable {c : Context} {t : FileTree} {p : Path} {s : Settings}

theorem reportsOnly_load (p : Path) : (load p).ReportsOnly Event.isRecord := by
  refine Work.reportsOnly_read.bind fun c => Work.reportsOnly_tree.bind fun t => ?_
  split
  · exact Work.reportsOnly_throw _
  · split
    · exact Work.reportsOnly_throw _
    · exact (Work.reportsOnly_log _).bind fun _ => Work.reportsOnly_pure _

theorem reportsOnly_loadHome (home : Path) : (loadHome home).ReportsOnly Event.isRecord := by
  refine Work.reportsOnly_read.bind fun c => Work.reportsOnly_tree.bind fun t => ?_
  split
  · exact reportsOnly_load _
  · exact (Work.reportsOnly_log _).bind fun _ => Work.reportsOnly_pure _

/-- A file that holds a settings text makes these settings. -/
theorem run_load_of_parse {session : Session} {text : String}
    (hread : session.tree.readFile c.directory p = .ok (Bytes.ofString text))
    (hparse : parse text = .ok s) : ∃ after, (load p).run c session = .ok s after := by
  have htext : session.tree.readText c.directory p = .ok text := by
    simp only [FileTree.readText, hread, bind, Except.bind, Bytes.toString?_ofString]
    rfl
  unfold load
  rw [Work.run_bind_of_ok Work.run_read, Work.run_bind_of_ok Work.run_tree]
  simp only [htext, hparse]
  exact ⟨_, Work.run_bind_of_ok (Work.run_log _)⟩

end DocBuild.Settings

namespace DocBuild.CommandLine

variable {v : Variables} {r : Request} {c : Context} {t : FileTree} {p : Path} {s : Settings}
  {elapsed : Nat}

/-- What the request for settings reads before a named builder is put in. -/
def Request.stored (r : Request) (v : Variables) : Work Settings :=
  match r.options.config with
  | some path => Settings.load path
  | none => do Settings.loadHome (← Work.ofExcept (Settings.knownHome v.home))

theorem Request.settings_eq : r.settings v = r.stored v >>= fun s =>
    match r.options.sphinx with
    | none => return s
    | some program => do
      Work.log ⟨.debug, .commandLine, "builder program overridden from command line",
        [("program", .text program)]⟩
      return { s with builder.program := program } := by
  unfold settings stored
  cases r.options.config with
  | some path => rfl
  | none => exact (bind_assoc _ _ _).symm

theorem Request.reportsOnly_stored (r : Request) (v : Variables) :
    (r.stored v).ReportsOnly Event.isRecord := by
  unfold stored
  cases r.options.config with
  | some path => exact Settings.reportsOnly_load path
  | none => exact (Work.reportsOnly_ofExcept _).bind fun _ => Settings.reportsOnly_loadHome _

theorem Request.reportsOnly_settings (r : Request) (v : Variables) :
    (r.settings v).ReportsOnly Event.isRecord := by
  rw [settings_eq]
  refine (r.reportsOnly_stored v).bind fun s => ?_
  cases r.options.sphinx with
  | none => exact Work.reportsOnly_pure s
  | some program => exact (Work.reportsOnly_log _).bind fun _ => Work.reportsOnly_pure _

theorem Outcome.passes_last (result : EStateM.Result Failure Session (Except SystemError Summary))
    (filter : LogFilter) : (last result).passes filter = true := by
  unfold last closing
  split
  · rfl
  · rfl
  · split <;> rfl

theorem Outcome.sessionOf_run (work : Work (Except SystemError Summary)) (c : Context) (s : Session) :
    sessionOf (work.run c s) = work.ends c s := by
  unfold sessionOf Work.ends
  cases work.run c s <;> rfl

/-- What a run tells is what the filter lets pass of its events, and then how it has ended. -/
theorem Request.notices_outcome (r : Request) (v : Variables) (c : Context) (t : FileTree) :
    (r.outcome v c t).notices =
      (((r.perform v).ends c { tree := t }).events.flatMap Notice.ofEvent).filter
        (·.passes (r.logFilter v)) ++ [Outcome.last ((r.perform v).run c { tree := t })] := by
  have hlast : [Outcome.last ((r.perform v).run c { tree := t })].filter (·.passes (r.logFilter v)) =
      [Outcome.last ((r.perform v).run c { tree := t })] :=
    List.filter_eq_self.2 fun n hn => by
      rw [List.mem_singleton.1 hn]
      exact Outcome.passes_last _ _
  simp only [outcome, Outcome.noticesOf, Outcome.sessionOf_run, List.filter_append, hlast]

/-- The bytes that showing settings prints: their text and one more line break. -/
def shownBytes (s : Settings) : Bytes :=
  Bytes.ofString (s.render ++ "\n")

theorem Request.run_perform_show (hshow : r.action = .showSettings) :
    r.perform v = (do return .ok (.settingsShown (← r.settings v))) := by
  unfold perform
  rw [hshow]

/-- A request to show settings prints the ones it works with, and nothing else. -/
theorem Request.printed_of_settings (hshow : r.action = .showSettings) {session : Session}
    (hsettings : (r.settings v).run c { tree := t } = .ok s session) :
    (r.outcome v c t).status = 0 ∧ (r.outcome v c t).printed .output v elapsed = shownBytes s := by
  have hrun : (r.perform v).run c { tree := t } = .ok (.ok (.settingsShown s)) session := by
    rw [run_perform_show hshow, Work.run_bind_of_ok hsettings]
    rfl
  obtain ⟨new, hnew, hrecords⟩ := (r.reportsOnly_settings v).of_ok hsettings
  have hsilent : ∀ n ∈ (session.events.flatMap Notice.ofEvent).filter (·.passes (r.logFilter v)),
      n.stream ≠ .output := by
    intro n hn
    obtain ⟨e, he, hn⟩ := List.mem_flatMap.1 (List.mem_of_mem_filter hn)
    rw [hnew, List.nil_append] at he
    cases e with
    | log record =>
      rw [List.mem_singleton.1 hn]
      exact Stream.noConfusion
    | _ => cases List.all_eq_true.1 hrecords _ he
  have hnone : ((session.events.flatMap Notice.ofEvent).filter (·.passes (r.logFilter v))).filter
      (·.stream = .output) = [] :=
    List.filter_eq_nil_iff.2 fun n hn => by simpa using hsilent n hn
  have houtcome : (r.outcome v c t).notices =
      (session.events.flatMap Notice.ofEvent).filter (·.passes (r.logFilter v)) ++
        [.summary (.settingsShown s)] := by
    rw [notices_outcome, Work.ends_of_ok hrun, hrun]
    rfl
  refine ⟨by simp only [outcome, hrun, Outcome.statusOf], ?_⟩
  rw [Outcome.printed, houtcome, List.filter_append, hnone]
  simp [Notice.bytes, Notice.text, Notice.lines, Summary.lines, shownBytes, Notice.stream, String.join]

/-- Settings that were shown have been loaded. -/
theorem Request.settings_of_shown (hshow : r.action = .showSettings)
    (hstatus : (r.outcome v c t).status = 0) :
    ∃ s session, (r.settings v).run c { tree := t } = .ok s session := by
  cases hsettings : (r.settings v).run c { tree := t } with
  | ok s session => exact ⟨s, session, rfl⟩
  | error f session =>
    have hrun : (r.perform v).run c { tree := t } = .error f session := by
      rw [run_perform_show hshow, Work.run_bind_of_error hsettings]
    have hfailed : (r.outcome v c t).status = f.exitStatus := by
      simp only [outcome, hrun, Outcome.statusOf]
    have hpositive := f.exitStatus_mem.1
    omega

/-- A settings text is read back as the settings it was written from. So what a run prints that shows
    settings can be kept as a settings file: loading it gives the settings that were shown, and a run
    that shows them from there, with no other builder named, prints the same bytes. -/
theorem shown_settings_read_back :
    (∀ s : Settings, Settings.parse s.render = .ok s) ∧
    ∀ (v : Variables) (arguments : List Bytes) (c : Context) (t : FileTree) (r : Request),
      Request.ofArguments v arguments = .ok r → r.action = .showSettings →
      (run v arguments c t).status = 0 →
      ∃ s session, (r.settings v).run c { tree := t } = .ok s session ∧
        ∀ (elapsed : Nat) (c' : Context) (t' : FileTree) (p : Path),
          t'.readFile c'.directory p = .ok ((run v arguments c t).printed .output v elapsed) →
          (∀ events, ∃ after, (Settings.load p).run c' { tree := t', events } = .ok s after) ∧
          ∀ (v' : Variables) (arguments' : List Bytes) (r' : Request) (elapsed' : Nat),
            Request.ofArguments v' arguments' = .ok r' → r'.action = .showSettings →
            r'.options.config = some p → r'.options.sphinx = none →
            (run v' arguments' c' t').status = 0 ∧
              (run v' arguments' c' t').printed .output v' elapsed' =
                (run v arguments c t).printed .output v elapsed := by
  refine ⟨fun s => ?_, fun v arguments c t r hr hshow hstatus => ?_⟩
  · have hparse := Settings.parse_render_append s (.inl rfl)
    rwa [String.append_empty] at hparse
  · have hrun : run v arguments c t = r.outcome v c t := by rw [run, hr]
    rw [hrun] at hstatus ⊢
    obtain ⟨s, session, hsettings⟩ := Request.settings_of_shown hshow hstatus
    refine ⟨s, session, hsettings, fun elapsed c' t' p hfile => ?_⟩
    rw [(Request.printed_of_settings hshow hsettings).2] at hfile ⊢
    have hload (events : List Event) :
        ∃ after, (Settings.load p).run c' { tree := t', events } = .ok s after :=
      Settings.run_load_of_parse hfile (Settings.parse_render_append s (.inr rfl))
    refine ⟨hload, fun v' arguments' r' elapsed' hr' hshow' hconfig hsphinx => ?_⟩
    have hrun' : run v' arguments' c' t' = r'.outcome v' c' t' := by rw [run, hr']
    obtain ⟨after, hafter⟩ := hload []
    have hsettings' : (r'.settings v').run c' { tree := t' } = .ok s after := by
      unfold Request.settings
      rw [hconfig, hsphinx, Work.run_bind_of_ok hafter]
      rfl
    rw [hrun']
    exact Request.printed_of_settings hshow' hsettings'

/-- The defaults with a builder whose name needs quotation marks of two kinds, shown, kept in the root
    directory and shown from there. -/
theorem shown_settings_read_back_of_quoted_builder :
    let name := Bytes.ofString
    let v : Variables := { home := name "/h" }
    let c : Context := { directory := [], launch := fun _ _ => .error .zeroByte }
    let shown := run v (["config", "show", "--sphinx", "it's \"it\""].map name) c FileTree.bare
    let kept := FileTree.bare.put (name "kept") [] (.file (shown.printed .output v 0) false)
    let again := run v (["config", "show", "--config", "/kept"].map name) c kept
    ∃ s : Settings, s.builder.program = "it's \"it\"" ∧
      (∃ after, (Settings.load (name "/kept")).run c { tree := kept } = .ok s after) ∧
      again.status = 0 ∧ again.printed .output v 0 = shown.printed .output v 0 := by
  intro name v c shown kept again
  have hrequest : Request.ofArguments v (["config", "show", "--sphinx", "it's \"it\""].map name) =
      .ok { action := .showSettings, options := { sphinx := some "it's \"it\"" } } := by
    decide +kernel
  have hagain : Request.ofArguments v (["config", "show", "--config", "/kept"].map name) =
      .ok { action := .showSettings, options := { config := some (name "/kept") } } := by
    decide +kernel
  have hstatus : shown.status = 0 := by decide +kernel
  have hfile : kept.readFile c.directory (name "/kept") = .ok (shown.printed .output v 0) := by
    decide +kernel
  obtain ⟨s, session, hsettings, hkept⟩ :=
    shown_settings_read_back.2 v _ c FileTree.bare _ hrequest rfl hstatus
  obtain ⟨hload, hshown⟩ := hkept 0 c kept (name "/kept") hfile
  obtain ⟨hok, hsame⟩ := hshown v _ _ 0 hagain rfl rfl rfl
  have hprogram : s.builder.program = "it's \"it\"" := by
    cases hsettings
    rfl
  exact ⟨s, hprogram, hload [], hok, hsame⟩

end DocBuild.CommandLine
