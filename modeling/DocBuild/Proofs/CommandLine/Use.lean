import DocBuild.Proofs.Build.Agreement
import DocBuild.Proofs.CommandLine.Show
import DocBuild.Proofs.Settings.Layers

namespace DocBuild

theorem Bytes.ofString_of_toString? {b : Bytes} {text : String} (h : b.toString? = some text) :
    ofString text = b := by
  unfold toString? String.fromUTF8? at h
  split at h
  · obtain rfl := Option.some.inj h
    rfl
  · cases h

theorem orElse_eq_left {α : Type} {o fallback : Option α} (h : o = none → fallback = none) :
    (o <|> fallback) = o := by
  cases o with
  | some a => rfl
  | none => rw [h rfl]; rfl

/-- The settings with another builder, if one is named. -/
def Settings.withBuilder (s : Settings) : Option String → Settings
  | none => s
  | some program => { s with builder.program := program }

theorem Settings.withBuilder_eq (s : Settings) (program : Option String) :
    s.withBuilder program = { s with builder.program := program.getD s.builder.program } := by
  cases program <;> rfl

namespace CommandLine

variable {v : Variables} {given options : Options} {r : Request} {c : Context} {t : FileTree}
  {s : Settings} {session : Session} {f : Failure} {launch : Launcher}

/-- The settings file that is named, on the command line or else by a variable. -/
def Variables.namedFile (v : Variables) (given : Options) : Option Path :=
  given.config <|> v.config

/-- The builder that is named, on the command line or else by a variable. -/
def Variables.namedBuilder (v : Variables) (given : Options) : Option String :=
  given.sphinx <|> v.sphinx.bind Bytes.toString?

theorem Options.store_config_eq_ok {o o' : Options} {value : Bytes}
    (h : o.store .config value = .ok o') : o' = { o with config := some value } := by
  unfold store at h
  split at h
  · cases h
  obtain ⟨p, hp, h⟩ := Sequence.bind_eq_ok_iff.1 h
  obtain rfl := Except.ok.inj h
  unfold readPath at hp
  split at hp
  · cases hp
  · obtain rfl := Except.ok.inj hp
    rfl

theorem Options.store_sphinx_eq_ok {o o' : Options} {value : Bytes}
    (h : o.store .sphinx value = .ok o') :
    ∃ text, value.toString? = some text ∧ o' = { o with sphinx := some text } := by
  unfold store at h
  split at h
  · cases h
  obtain ⟨text, htext, h⟩ := Sequence.bind_eq_ok_iff.1 h
  obtain rfl := Except.ok.inj h
  unfold readText at htext
  split at htext
  · next text' hvalue =>
    obtain rfl := Except.ok.inj htext
    exact ⟨_, hvalue, rfl⟩
  · cases htext

/-- A variable stands in for a builder that is not named on the command line. -/
theorem Variables.completeBuilder_eq_ok {o : Options}
    (h : (match o.sphinx, v.sphinx with
      | none, some value => o.store .sphinx value
      | _, _ => pure o) = Except.ok options) :
    options = { o with sphinx := v.namedBuilder o } ∧
      (o.sphinx = none → ∀ value, v.sphinx = some value → ∃ text, value.toString? = some text) := by
  unfold namedBuilder
  split at h
  · next value hnone hvalue =>
    obtain ⟨text, htext, rfl⟩ := Options.store_sphinx_eq_ok h
    refine ⟨by simp [hnone, hvalue, htext], fun _ value' hvalue' => ⟨text, ?_⟩⟩
    rw [hvalue] at hvalue'
    exact Option.some.inj hvalue' ▸ htext
  · next hother =>
    obtain rfl := Except.ok.inj h
    refine ⟨?_, fun hnone value hvalue => absurd hvalue (hother value hnone)⟩
    have hunset (hnone : o.sphinx = none) : v.sphinx = none :=
      Option.eq_none_iff_forall_ne_some.2 (hother · hnone)
    rw [orElse_eq_left fun hnone => by rw [hunset hnone, Option.bind_none]]

/-- Variables stand in for two of the options, and for no others; one that does must be a text where
    a text is wanted. -/
theorem Variables.complete_eq_ok (h : v.complete given = .ok options) :
    options = { given with config := v.namedFile given, sphinx := v.namedBuilder given } ∧
      (given.sphinx = none → ∀ value, v.sphinx = some value → ∃ text, value.toString? = some text) := by
  unfold complete at h
  unfold namedFile
  split at h
  · next value hnone hvalue =>
    obtain ⟨o, hstore, h⟩ := Sequence.bind_eq_ok_iff.1 h
    obtain rfl := Options.store_config_eq_ok hstore
    obtain ⟨rfl, htext⟩ := completeBuilder_eq_ok h
    exact ⟨by simp [hnone, hvalue, namedBuilder], htext⟩
  · next hother =>
    obtain ⟨rfl, htext⟩ := completeBuilder_eq_ok h
    refine ⟨?_, htext⟩
    rw [orElse_eq_left fun hnone => Option.eq_none_iff_forall_ne_some.2 (hother · hnone)]

theorem Request.effect_stored : (r.stored v).effect c session =
    (session.tree, Settings.configured session.tree c.directory r.options.config v.home) := by
  unfold stored
  cases r.options.config with
  | some path => exact Settings.effect_load
  | none =>
    cases v.home with
    | none => rfl
    | some home => exact Settings.effect_loadHome

theorem Request.run_stored_congr :
    (r.stored v).run { c with launch } session = (r.stored v).run c session := by
  unfold stored
  cases r.options.config with
  | some path => exact Settings.run_load_congr
  | none =>
    cases v.home with
    | none => rfl
    | some home => exact Settings.run_loadHome_congr

/-- A request changes nothing by reading its settings, and a named builder replaces the stored one. -/
theorem Request.effect_settings : (r.settings v).effect c session =
    (session.tree, (Settings.configured session.tree c.directory r.options.config v.home).map
      (·.withBuilder r.options.sphinx)) := by
  rw [settings_eq]
  have hstored : (r.stored v).effect c session = _ := r.effect_stored
  cases hrun : (r.stored v).run c session with
  | error f after =>
    rw [Work.effect_of_error hrun] at hstored
    obtain ⟨hleft, hfailed⟩ := Prod.mk.inj hstored
    rw [Work.effect_bind_of_error hrun, ← hfailed, hleft]
    rfl
  | ok s after =>
    rw [Work.effect_of_ok hrun] at hstored
    obtain ⟨hleft, hread⟩ := Prod.mk.inj hstored
    rw [Work.effect_bind_of_ok hrun, ← hread, ← hleft]
    cases r.options.sphinx <;> rfl

theorem Request.run_settings_congr :
    (r.settings v).run { c with launch } session = (r.settings v).run c session := by
  rw [settings_eq]
  refine run_bind_congr run_stored_congr fun s session => ?_
  cases r.options.sphinx <;> rfl

section

variable {kind : FileTree → Launch → Prop}

section Directory

variable {act : Path → Work Summary}

theorem Request.run_inDirectory_of_there (h : session.tree.isDirectory c.directory = true) :
    (inDirectory act).run c session =
      (do return .ok (← act c.directory.path) : Work (Except SystemError Summary)).run c session := by
  unfold inDirectory
  rw [Work.run_bind_of_ok Work.run_read, Work.run_bind_of_ok Work.run_tree, if_pos h]

theorem Request.run_inDirectory_of_gone (h : session.tree.isDirectory c.directory = false) :
    (inDirectory act).run c session = .ok (.error .noEntry) session := by
  unfold inDirectory
  rw [Work.run_bind_of_ok Work.run_read, Work.run_bind_of_ok Work.run_tree, if_neg (by simp [h])]
  rfl

/-- Where the working directory is gone, nothing happens. -/
theorem Request.effect_inDirectory : (inDirectory act).effect c session =
    if session.tree.isDirectory c.directory then
      ((act c.directory.path).effect c session).map id (Except.map .ok)
    else (session.tree, .ok (.error .noEntry)) := by
  cases h : session.tree.isDirectory c.directory with
  | false => exact Work.effect_of_ok (run_inDirectory_of_gone h)
  | true =>
    rw [Work.effect_congr (run_inDirectory_of_there h), Work.effect_then_return]
    rfl

theorem Request.requests_inDirectory_iff : (inDirectory act).Requests c session kind ↔
    session.tree.isDirectory c.directory = true ∧
      (act c.directory.path).Requests c session kind := by
  cases h : session.tree.isDirectory c.directory with
  | false =>
    refine iff_of_false ?_ (by simp)
    rintro ⟨launch, -, hother⟩
    rw [run_inDirectory_of_gone h, run_inDirectory_of_gone (c := { c with launch }) h] at hother
    exact hother rfl
  | true =>
    have hpresent (a b : Summary) (hab : Except.ok a = (Except.ok b : Except SystemError Summary)) :
        a = b := Except.ok.inj hab
    rw [← Work.requests_then_return hpresent]
    simp only [true_and]
    refine exists_congr fun launch => and_congr_right fun _ => not_congr ?_
    rw [run_inDirectory_of_there h, run_inDirectory_of_there (c := { c with launch }) h]

end Directory

/-- The command for building, as a request carries it out. -/
theorem Request.effect_build : (r.build s).effect c session =
    if session.tree.isDirectory c.directory then
      ((DocBuild.build (r.locator s).root c.directory.path s.layout s.builder).effect c
        { tree := session.tree }).map id
          (Except.map fun report => .ok (.built report s.builder.format))
    else (session.tree, .ok (.error .noEntry)) := by
  have hbuild (events : List Event) :
      (DocBuild.build (r.locator s).root c.directory.path s.layout s.builder).effect c
          { tree := session.tree, events } =
        (DocBuild.build (r.locator s).root c.directory.path s.layout s.builder).effect c
          { tree := session.tree } :=
    ignoresReports_build ((r.locator s).ignoresReports_root _) c _ _ rfl
  unfold build
  rw [effect_inDirectory, Work.effect_bind_of_ok (Work.run_log _),
    Work.effect_then_return fun report => Summary.built report s.builder.format, hbuild,
    Prod.map_map, Sequence.map_comp_map]
  rfl

theorem Request.clean_eq : r.clean s = inDirectory fun directory => do
    return Summary.cleaned.uncurry (← DocBuild.clean (r.locator s).root directory s.layout) := rfl

theorem Request.effect_clean : (r.clean s).effect c session =
    if session.tree.isDirectory c.directory then
      ((DocBuild.clean (r.locator s).root c.directory.path s.layout).effect c
        { tree := session.tree }).map id
          (Except.map fun cleaned => .ok (Summary.cleaned.uncurry cleaned))
    else (session.tree, .ok (.error .noEntry)) := by
  have hclean : (DocBuild.clean (r.locator s).root c.directory.path s.layout).effect c session =
      (DocBuild.clean (r.locator s).root c.directory.path s.layout).effect c
        { tree := session.tree } :=
    ignoresReports_clean ((r.locator s).ignoresReports_root _) c _ _ rfl
  rw [clean_eq, effect_inDirectory, Work.effect_then_return, hclean, Prod.map_map,
    Sequence.map_comp_map]
  rfl

theorem Request.effect_clean_eq_ok_iff {cleaned : FileTree} {site : Site} {removed : List Path} :
    (r.clean s).effect c session = (cleaned, .ok (.ok (.cleaned site removed))) ↔
      session.tree.isDirectory c.directory = true ∧
        (DocBuild.clean (r.locator s).root c.directory.path s.layout).effect c
          { tree := session.tree } = (cleaned, .ok (site, removed)) := by
  rw [effect_clean]
  cases session.tree.isDirectory c.directory with
  | false => simp
  | true =>
    rcases (DocBuild.clean (r.locator s).root c.directory.path s.layout).effect c
      { tree := session.tree } with ⟨left, f | ⟨site', removed'⟩⟩
    · simp [Except.map]
    · simp [Except.map, Function.uncurry_apply_pair]

/-- The locator of a request asks only where no root is given, and then the configured program. -/
theorem Request.exists_request_locator {start : Path} : (∃ q, (r.locator s).request? start = some q ∧
    kind t q) ↔ r.options.root = none ∧ kind t ⟨s.vcs.program, Locator.question, start⟩ := by
  unfold locator
  cases r.options.root <;> simp [Locator.request?]

theorem Request.requests_build_iff : (r.build s).Requests c session kind ↔
    session.tree.isDirectory c.directory = true ∧
      ((∃ q, (r.locator s).request? c.directory.path = some q ∧ kind session.tree q) ∨
        ∃ site removed cleaned,
          (DocBuild.clean (r.locator s).root c.directory.path s.layout).effect c
            { tree := session.tree } = (cleaned, .ok (site, removed)) ∧
          kind cleaned (s.builder.launch site)) := by
  have hbuilt (a b : BuildReport)
      (h : Summary.built a s.builder.format = .built b s.builder.format) : a = b := by
    injection h
  have hclean (events : List Event) :
      (DocBuild.clean (r.locator s).root c.directory.path s.layout).effect c
          { tree := session.tree, events } =
        (DocBuild.clean (r.locator s).root c.directory.path s.layout).effect c
          { tree := session.tree } :=
    ignoresReports_clean ((r.locator s).ignoresReports_root _) c _ _ rfl
  unfold build
  rw [requests_inDirectory_iff, Work.requests_bind_of_ok (fun _ => rfl) (Work.run_log _),
    Work.requests_then_return hbuilt, Locator.requests_build_iff, hclean]

theorem Request.requests_clean_iff : (r.clean s).Requests c session kind ↔
    session.tree.isDirectory c.directory = true ∧
      ∃ q, (r.locator s).request? c.directory.path = some q ∧ kind session.tree q := by
  have hcleaned (a b : Site × List Path)
      (h : Summary.cleaned.uncurry a = Summary.cleaned.uncurry b) : a = b := by
    injection h with hsite hremoved
    exact Prod.ext hsite hremoved
  rw [clean_eq, requests_inDirectory_iff, Work.requests_then_return hcleaned,
    Locator.requests_clean_iff]

/-- What a request does with its settings, unless it creates them. -/
def Request.command (r : Request) (s : Settings) : Work (Except SystemError Summary) :=
  match r.action with
  | .build => r.build s
  | .clean => r.clean s
  | .initSettings | .showSettings => return .ok (.settingsShown s)

theorem Request.perform_eq (h : r.action ≠ .initSettings) :
    r.perform v = r.settings v >>= r.command := by
  unfold perform command
  cases haction : r.action with
  | initSettings => exact absurd haction h
  | _ => rfl

/-- A request whose settings are known does with them what it is for. -/
theorem Request.perform_of_configured {base : Settings} (h : r.action ≠ .initSettings)
    (hbase : Settings.configured t c.directory r.options.config v.home = .ok base) :
    ∃ session, session.tree = t ∧
      (r.perform v).effect c { tree := t } =
        (r.command (base.withBuilder r.options.sphinx)).effect c session ∧
      ∀ kind, (r.perform v).Requests c { tree := t } kind ↔
        (r.command (base.withBuilder r.options.sphinx)).Requests c session kind := by
  have hsettings : (r.settings v).effect c { tree := t } = _ := r.effect_settings
  rw [hbase] at hsettings
  obtain ⟨session, hrun, htree⟩ := Work.effect_eq_ok_iff.1 hsettings
  rw [perform_eq h]
  exact ⟨session, htree, Work.effect_bind_of_ok hrun, fun kind =>
    Work.requests_bind_of_ok (fun _ => run_settings_congr) hrun⟩

/-- A request whose settings cannot be read fails with that, does nothing and runs nothing. -/
theorem Request.fails_of_configured (h : r.action ≠ .initSettings)
    (hfailed : Settings.configured t c.directory r.options.config v.home = .error f) :
    (r.perform v).effect c { tree := t } = (t, .error f) ∧
      (r.outcome v c t).status = 1 ∧ (r.outcome v c t).tree = t ∧
      ∀ kind, ¬ (r.perform v).Requests c { tree := t } kind := by
  have hsettings : (r.settings v).effect c { tree := t } = _ := r.effect_settings
  rw [hfailed] at hsettings
  obtain ⟨session, hrun, htree⟩ := Work.effect_eq_error_iff.1 hsettings
  have hperform : (r.perform v).run c { tree := t } = .error f session := by
    rw [perform_eq h, Work.run_bind_of_error hrun]
  refine ⟨?_, ?_, ?_, fun kind => ?_⟩
  · rw [Work.effect_of_error hperform, htree]
  · simp only [outcome, hperform, Outcome.statusOf]
    exact Settings.exitStatus_of_configured hfailed
  · simp only [outcome, hperform, Outcome.sessionOf]
    exact htree
  · rw [perform_eq h]
    exact Work.not_requests_bind_of_error (fun _ => run_settings_congr) hrun

/-- Where the settings of a run come from, layer by layer. -/
structure Layered (v : Variables) (given : Options) (c : Context) (t : FileTree)
    (base s : Settings) : Prop where
  /-- Everything but the builder's program is as it is stored. -/
  others : s = { base with builder.program := s.builder.program }
  /-- What is stored is in the file that is named, on the command line or by a variable, else in the
      user's own; where none is named and the user has none, it is the defaults. -/
  stored : Settings.configured t c.directory (given.config <|> v.config) v.home = .ok base
  /-- The program is the one given on the command line, -/
  option (program : String) (hgiven : given.sphinx = some program) : s.builder.program = program
  /-- else the one that a variable gives, -/
  environment (value : Bytes) (hgiven : given.sphinx = none) (hvalue : v.sphinx = some value) :
    Bytes.ofString s.builder.program = value
  /-- else the one that is stored, -/
  file (hgiven : given.sphinx = none) (hvalue : v.sphinx = none) :
    s.builder.program = base.builder.program
  /-- which is the one that the file mentions, else the default. -/
  mentioned : base = {} ∨ ∃ p text root, t.readText c.directory p = .ok text ∧
    Settings.parse text = .ok base ∧ Toml.document? text.toList = some root ∧
    base.builder.program = (Settings.programIn? root).getD ({} : BuilderSection).program

/-- How a build and a cleaning use settings. -/
structure Uses (v : Variables) (given options : Options) (c : Context) (t : FileTree)
    (s : Settings) : Prop where
  /-- Both find the root as it is given, or else with the configured program, and take layout and
      builder from the settings. Where the working directory is gone they fail, and do nothing. -/
  built : (Request.perform ⟨.build, options⟩ v).effect c { tree := t } =
    if t.isDirectory c.directory then
      ((DocBuild.build (match given.root with
          | some root => Locator.given root
          | none => .asked s.vcs.program).root c.directory.path s.layout s.builder).effect c
        { tree := t }).map id (Except.map fun report => .ok (.built report s.builder.format))
    else (t, .ok (.error .noEntry))
  cleaned : (Request.perform ⟨.clean, options⟩ v).effect c { tree := t } =
    if t.isDirectory c.directory then
      ((DocBuild.clean (match given.root with
          | some root => Locator.given root
          | none => .asked s.vcs.program).root c.directory.path s.layout).effect c
        { tree := t }).map id (Except.map fun cleaned => .ok (Summary.cleaned.uncurry cleaned))
    else (t, .ok (.error .noEntry))
  /-- A cleaning asks for one program, the configured one that knows the root, and for none if the
      root is given. -/
  asked (kind : FileTree → Launch → Prop) :
    (Request.perform ⟨.clean, options⟩ v).Requests c { tree := t } kind ↔
      t.isDirectory c.directory = true ∧ given.root = none ∧
        kind t ⟨s.vcs.program, Locator.question, c.directory.path⟩
  /-- A build asks for the same and, where the cleaning succeeds, for the configured builder in the
      root of the site that was cleaned: between the configured arguments stand `-M`, the configured
      format, the sources and the output. -/
  launched (kind : FileTree → Launch → Prop) :
    (Request.perform ⟨.build, options⟩ v).Requests c { tree := t } kind ↔
      (t.isDirectory c.directory = true ∧ given.root = none ∧
        kind t ⟨s.vcs.program, Locator.question, c.directory.path⟩) ∨
        ∃ site removed cleaned,
          (Request.perform ⟨.clean, options⟩ v).effect c { tree := t } =
            (cleaned, .ok (.ok (.cleaned site removed))) ∧
          Site.resolve site.root s.layout = .ok site ∧
          kind cleaned {
            program := s.builder.program
            arguments := s.builder.prefixArgs.map Bytes.ofString
              ++ [Bytes.ofString "-M", Bytes.ofString s.builder.format, site.sources, site.output]
              ++ s.builder.extraArgs.map Bytes.ofString
            directory := site.root }

theorem layered_of_configured {base : Settings} (hoptions : v.complete given = .ok options)
    (hbase : Settings.configured t c.directory options.config v.home = .ok base) :
    Layered v given c t base (base.withBuilder options.sphinx) := by
  obtain ⟨rfl, htext⟩ := Variables.complete_eq_ok hoptions
  dsimp only at hbase ⊢
  rw [Settings.withBuilder_eq]
  constructor
  case others => rfl
  case stored => exact hbase
  case option =>
    intro program hgiven
    simp [Variables.namedBuilder, hgiven]
  case environment =>
    intro value hgiven hvalue
    obtain ⟨text, hvalid⟩ := htext hgiven value hvalue
    simp [Variables.namedBuilder, hgiven, hvalue, hvalid, Bytes.ofString_of_toString? hvalid]
  case file =>
    intro hgiven hvalue
    simp [Variables.namedBuilder, hgiven, hvalue]
  case mentioned =>
    exact Settings.configured_eq_ok hbase

theorem uses_of_configured {base : Settings} (hoptions : v.complete given = .ok options)
    (hbase : Settings.configured t c.directory options.config v.home = .ok base) :
    Uses v given options c t (base.withBuilder options.sphinx) := by
  have hroot : options.root = given.root := by rw [(Variables.complete_eq_ok hoptions).1]
  obtain ⟨session, htree, hbuild, hbuilds⟩ :=
    Request.perform_of_configured (r := ⟨.build, options⟩) (by simp) hbase
  obtain ⟨session', htree', hclean, hcleans⟩ :=
    Request.perform_of_configured (r := ⟨.clean, options⟩) (by simp) hbase
  constructor
  case built =>
    rw [hbuild, ← htree, ← hroot]
    exact Request.effect_build
  case cleaned =>
    rw [hclean, ← htree', ← hroot]
    exact Request.effect_clean
  case asked =>
    intro kind
    rw [hcleans kind, ← htree', ← hroot]
    exact Request.requests_clean_iff.trans (and_congr_right fun _ => Request.exists_request_locator)
  case launched =>
    intro kind
    rw [hbuilds kind, hclean, ← hroot, ← htree]
    refine Request.requests_build_iff.trans (and_or_left.trans (or_congr
      (and_congr_right fun _ => Request.exists_request_locator) ?_))
    constructor
    · rintro ⟨hthere, site, removed, cleaned, h, hkind⟩
      obtain ⟨found, -, hsite, -⟩ := Locator.effect_clean_eq_ok h
      rw [htree, ← htree'] at h hthere
      exact ⟨site, removed, cleaned, Request.effect_clean_eq_ok_iff.2 ⟨hthere, h⟩, hsite, hkind⟩
    · rintro ⟨site, removed, cleaned, h, -, hkind⟩
      obtain ⟨hthere, hsites⟩ := Request.effect_clean_eq_ok_iff.1 h
      rw [htree', ← htree] at hthere hsites
      exact ⟨hthere, site, removed, cleaned, hsites, hkind⟩

/-- The settings that are shown are the ones that a build and a cleaning with the same options use,
    whatever file they come from. Where settings cannot be read, all three commands fail alike, and
    nothing is deleted and nothing run. -/
theorem shown_settings_are_used (hoptions : v.complete given = .ok options) (c : Context)
    (t : FileTree) :
    (∀ (s : Settings) (text : String) (elapsed : Nat),
      (Request.outcome ⟨.showSettings, options⟩ v c t).status = 0 →
      (Request.outcome ⟨.showSettings, options⟩ v c t).printed .output v elapsed =
        Bytes.ofString text →
      Settings.parse text = .ok s →
      (∃ base, Layered v given c t base s) ∧ Uses v given options c t s) ∧
    ∀ f, Settings.configured t c.directory (given.config <|> v.config) v.home = .error f →
      ∀ action ∈ [Action.build, .clean, .showSettings],
        (Request.perform ⟨action, options⟩ v).effect c { tree := t } = (t, .error f) ∧
          (Request.outcome ⟨action, options⟩ v c t).status = 1 ∧
          (Request.outcome ⟨action, options⟩ v c t).tree = t ∧
          ∀ kind, ¬ (Request.perform ⟨action, options⟩ v).Requests c { tree := t } kind := by
  have hconfig : options.config = (given.config <|> v.config) := by
    rw [(Variables.complete_eq_ok hoptions).1, Variables.namedFile]
  constructor
  · intro s text elapsed hstatus hprinted hparse
    obtain ⟨shown, session, hsettings⟩ := Request.settings_of_shown rfl hstatus
    have hsame : s = shown := by
      rw [(Request.printed_of_settings rfl hsettings).2] at hprinted
      have htext := congrArg Bytes.toString? hprinted
      rw [shownBytes, Bytes.toString?_ofString, Bytes.toString?_ofString] at htext
      rw [← Option.some.inj htext, Settings.parse_render_append shown (.inr rfl)] at hparse
      exact (Except.ok.inj hparse).symm
    have heffect := Work.effect_of_ok hsettings
    rw [Request.effect_settings] at heffect
    have hbase := (Prod.mk.inj heffect).2
    cases hconfigured : Settings.configured t c.directory options.config v.home with
    | error f =>
      dsimp only at hbase
      rw [hconfigured] at hbase
      cases hbase
    | ok base =>
      dsimp only at hbase
      rw [hconfigured] at hbase
      rw [hsame, ← Except.ok.inj hbase]
      exact ⟨⟨base, layered_of_configured hoptions hconfigured⟩,
        uses_of_configured hoptions hconfigured⟩
  · intro f hfailed action haction
    rw [← hconfig] at hfailed
    refine Request.fails_of_configured ?_ hfailed
    rintro rfl
    simp at haction

end

/-- A file and a builder that variables name: the builder of the variable is shown and used, with the
    arguments of the file, and the program for the root is that of the file. Where the file is missing,
    a build fails for that. -/
theorem shown_settings_are_used_of_variables :
    let name := Bytes.ofString
    let v : Variables := {
      home := none, config := some (name "/s.toml"), sphinx := some (name "other-build") }
    let options : Options := { config := some (name "/s.toml"), sphinx := some "other-build" }
    let c : Context := {
      directory := []
      launch := fun t l =>
        if l = ⟨"hg", Locator.question, name "/"⟩ then
          .ok { ending := .exited 0, tree := t, output := name "/r\n", errors := [] }
        else .error .zeroByte }
    let file := name ("[builder]\nprogram = \"file-build\"\nprefix_args = [\"-q\"]\n" ++
      "format = \"dirhtml\"\nextra_args = [\"-W\", \"-n\"]\n[vcs]\nprogram = \"hg\"\n")
    let t := (FileTree.bare.put (name "r") [] .directory).put (name "s.toml") [] (.file file false)
    let s : Settings := {
      builder := {
        program := "other-build", prefixArgs := ["-q"], format := "dirhtml", extraArgs := ["-W", "-n"] }
      vcs.program := "hg" }
    let request : Request := ⟨.showSettings, options⟩
    let started : Launch := {
      program := "other-build"
      arguments := ["-q", "-M", "dirhtml", "/r/docs", "/r/docs/_build", "-W", "-n"].map name
      directory := name "/r" }
    v.complete {} = .ok options ∧
      ((request.outcome v c t).status = 0 ∧
        (request.outcome v c t).printed .output v 0 = Bytes.ofString (s.render ++ "\n") ∧
        Settings.parse (s.render ++ "\n") = .ok s) ∧
      (∃ base, Layered v {} c t base s) ∧ Uses v {} options c t s ∧
      ((Request.perform ⟨.build, options⟩ v).Requests c { tree := t } fun _ l => l = started) ∧
      (Request.perform ⟨.build, options⟩ v).effect c { tree := FileTree.bare } =
        (FileTree.bare, .error (.file (name "/s.toml") (.system .noEntry))) := by
  intro name v options c file t s request started
  have hoptions : v.complete {} = .ok options := by decide +kernel
  have hstatus : (request.outcome v c t).status = 0 := by decide +kernel
  have hprinted : (request.outcome v c t).printed .output v 0 = Bytes.ofString (s.render ++ "\n") := by
    decide +kernel
  have hparse : Settings.parse (s.render ++ "\n") = .ok s :=
    Settings.parse_render_append s (.inr rfl)
  obtain ⟨hlayered, huses⟩ :=
    (shown_settings_are_used hoptions c t).1 s _ 0 hstatus hprinted hparse
  let site : Site := {
    root := name "/r", sources := name "/r/docs", generated := name "/r/docs/generated"
    output := name "/r/docs/_build" }
  obtain ⟨cleaned, hclean⟩ : ∃ cleaned,
      (Request.perform ⟨.clean, options⟩ v).effect c { tree := t } =
        (cleaned, .ok (.ok (.cleaned site []))) := Work.exists_effect_eq (by decide +kernel)
  have hstarted : (Request.perform ⟨.build, options⟩ v).Requests c { tree := t }
      fun _ l => l = started :=
    (huses.launched _).2 (.inr ⟨site, [], cleaned, hclean, by rfl, by rfl⟩)
  have hmissing : Settings.configured FileTree.bare c.directory (some (name "/s.toml")) v.home =
      .error (.file (name "/s.toml") (.system .noEntry)) := by rfl
  obtain ⟨hfails, -⟩ := (shown_settings_are_used hoptions c FileTree.bare).2 _ hmissing .build (by simp)
  exact ⟨hoptions, ⟨hstatus, hprinted, hparse⟩, hlayered, huses, hstarted, hfails⟩

end CommandLine
end DocBuild
