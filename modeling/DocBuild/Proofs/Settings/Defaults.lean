import DocBuild.Proofs.Settings.Creation
import DocBuild.Proofs.Settings.Layers
import DocBuild.Proofs.Settings.RoundTrip

namespace DocBuild.Settings

variable {c : Context} {s s' : Session} {t : FileTree} {cwd : Location} {p q home : Path}

theorem parse_render (s : Settings) : parse s.render = .ok s := by
  have hempty : "" = "" ∨ "" = "\n" := .inl rfl
  have h := parse_render_append s hempty
  rwa [String.append_empty] at h

/-- A file with the text of settings holds these settings. -/
theorem heldBy_of_entry {l : Location} {executable : Bool} {settings : Settings}
    (h : t.entry cwd .follow p = .ok (l, .file (Bytes.ofString settings.render) executable)) :
    heldBy t cwd p = .ok settings := by
  simp only [heldBy, FileTree.readText_of_entry h, parse_render]

/-- What was created is at the path that was asked for, which named nothing before, and was written to
    a tree that had the directories for it. -/
theorem run_init_eq_ok (h : (init p).run c s = .ok q s') :
    q = p ∧ s.tree.pathExists c.directory p = false ∧
      ∃ t, prepared s.tree c.directory p = (t, .ok ()) ∧
        t.writeFile c.directory p defaults = .ok s'.tree := by
  cases hexists : s.tree.pathExists c.directory p with
  | true =>
    rw [run_init_of_exists hexists] at h
    cases h
  | false =>
    rcases hprepared : prepared s.tree c.directory p with ⟨t, e | ⟨⟩⟩
    · obtain ⟨parent, hrun⟩ := run_init_of_unprepared hexists hprepared
      rw [hrun] at h
      cases h
    · rcases run_init_of_prepared hexists hprepared with ⟨e, -, hrun⟩ | ⟨t', r, hwrite, hrun⟩
      · rw [hrun] at h
        cases h
      · rw [hrun] at h
        cases h
        exact ⟨rfl, rfl, t, rfl, hwrite⟩

/-- The path of a new settings file names a file with the defaults. -/
theorem entry_of_init (h : (init p).run c s = .ok q s') :
    ∃ l executable, s'.tree.entry c.directory .follow p = .ok (l, .file defaults executable) := by
  obtain ⟨-, -, t, -, hwrite⟩ := run_init_eq_ok h
  exact FileTree.entry_of_writeFile hwrite

theorem pathExists_of_init (h : (init p).run c s = .ok q s') :
    s'.tree.pathExists c.directory p = true := by
  obtain ⟨l, executable, hentry⟩ := entry_of_init h
  rw [FileTree.pathExists, hentry]
  rfl

theorem heldBy_of_init (h : (init p).run c s = .ok q s') :
    heldBy s'.tree c.directory p = .ok {} := by
  obtain ⟨l, executable, hentry⟩ := entry_of_init h
  exact heldBy_of_entry hentry

/-- A settings file that was created is loaded as the defaults, and creating it again is refused and
    changes nothing. Where it is the file of a user, the settings of that user were the defaults before
    and are the defaults after, whatever the home is. -/
theorem init_leaves_defaults (c : Context) (s s' : Session) :
    (∀ p q, (init p).run c s = .ok q s' →
      (load p).effect c s' = (s'.tree, .ok {}) ∧
      (init p).run c s' = .error
        (.settings s!"{p.display} already exists; remove it first to regenerate defaults") s') ∧
    ∀ home q, (init (homeFile home)).run c s = .ok q s' →
      (loadHome home).effect c s = (s.tree, .ok {}) ∧
      (loadHome home).effect c s' = (s'.tree, .ok {}) := by
  refine ⟨fun p q hinit => ⟨?_, ?_⟩, fun home q hinit => ⟨?_, ?_⟩⟩
  · rw [effect_load, heldBy_of_init hinit]
  · exact run_init_of_exists (pathExists_of_init hinit)
  · have hfree := (run_init_eq_ok hinit).2.1
    simp [effect_loadHome, configured_home, hfree]
  · rw [effect_loadHome, configured_home]
    simp only [pathExists_of_init hinit, heldBy_of_init hinit, if_true]

/-- A settings file created through a link that led nowhere, and the file of a user whose home is
    missing. -/
theorem init_leaves_defaults_of_dangling_link :
    let name := Bytes.ofString
    let c : Context := { directory := [], launch := fun _ _ => .error .zeroByte }
    let s : Session := { tree := FileTree.bare.put (name "here") [] (.link (name "there.toml")) }
    (∃ s', (init (name "here")).run c s = .ok (name "here") s' ∧
      s'.tree.get? [name "there.toml"] = some (.file defaults false) ∧
      (load (name "here")).effect c s' = (s'.tree, .ok {}) ∧
      (init (name "here")).run c s' = .error
        (.settings "here already exists; remove it first to regenerate defaults") s') ∧
    ∃ s', (init (homeFile (name "/new/home"))).run c s = .ok (homeFile (name "/new/home")) s' ∧
      (loadHome (name "/new/home")).effect c s = (s.tree, .ok {}) ∧
      (loadHome (name "/new/home")).effect c s' = (s'.tree, .ok {}) := by
  intro name c s
  have hhere : (match (init (name "here")).run c s with
      | .ok q s' => decide (q = name "here" ∧
          s'.tree.get? [name "there.toml"] = some (.file defaults false))
      | .error _ _ => false) = true := by decide +kernel
  have hhome : (match (init (homeFile (name "/new/home"))).run c s with
      | .ok q _ => decide (q = homeFile (name "/new/home"))
      | .error _ _ => false) = true := by decide +kernel
  constructor
  · split at hhere
    · next q s' hinit =>
      obtain ⟨rfl, hthere⟩ := of_decide_eq_true hhere
      obtain ⟨hload, hagain⟩ := (init_leaves_defaults c s s').1 _ _ hinit
      have hspelt : Path.display (name "here") = "here" := by decide +kernel
      rw [hspelt] at hagain
      exact ⟨s', hinit, hthere, hload, hagain⟩
    · cases hhere
  · split at hhome
    · next q s' hinit =>
      obtain rfl := of_decide_eq_true hhome
      exact ⟨s', hinit, (init_leaves_defaults c s s').2 _ _ hinit⟩
    · cases hhome

end DocBuild.Settings
