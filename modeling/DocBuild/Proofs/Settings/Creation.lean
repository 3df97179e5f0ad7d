import DocBuild.Proofs.FileTree.Fresh
import DocBuild.Proofs.FileTree.Writing
import DocBuild.Proofs.Work
import DocBuild.Settings.Store

namespace DocBuild.Settings

variable {c : Context} {s s' : Session} {p : Path}

/-- The text of a new settings file. -/
def defaults : Bytes :=
  Bytes.ofString (render {})

theorem run_init_of_exists (h : s.tree.pathExists c.directory p = true) :
    (init p).run c s = .error
      (.settings s!"{p.display} already exists; remove it first to regenerate defaults") s := by
  unfold init
  rw [Work.run_bind_of_ok Work.run_read, Work.run_bind_of_ok Work.run_tree, if_pos h]
  rfl

/-- The tree that the defaults are written to, with the directories above the path, or what is left
    of it when these cannot be created. -/
def prepared (t : FileTree) (cwd : Location) (p : Path) : FileTree × Except FileError Unit :=
  match p.parent? with
  | none => (t, .ok ())
  | some parent => t.makePath cwd parent

/-- A path that names nothing gets its directories first, and the defaults are written after that. -/
theorem run_init_of_free (h : s.tree.pathExists c.directory p = false) :
    (init p).run c s = ((match p.parent? with
      | none => pure ()
      | some parent => Work.onTree parent fun t => t.makePath c.directory parent) >>= fun _ => do
        Work.onTree p fun t =>
          match t.writeFile c.directory p defaults with
          | .ok t => (t, .ok ())
          | .error e => (t, .error e)
        Work.log ⟨.info, .settings, "created default config file",
          [("path", .text (Text.quotedBytes p))]⟩
        return p : Work Path).run c s := by
  unfold init
  rw [Work.run_bind_of_ok Work.run_read, Work.run_bind_of_ok Work.run_tree, if_neg (by simp [h])]
  dsimp only
  cases p.parent? <;> rfl

theorem run_init_of_unprepared {t : FileTree} {e : FileError}
    (h : s.tree.pathExists c.directory p = false)
    (hprepared : prepared s.tree c.directory p = (t, .error e)) :
    ∃ q, (init p).run c s = .error (.file q e) { s with tree := t } := by
  unfold prepared at hprepared
  split at hprepared
  · cases hprepared
  next parent hparent =>
  refine ⟨parent, ?_⟩
  rw [run_init_of_free h, hparent]
  exact Work.run_bind_of_error (by rw [Work.run_onTree, hprepared])

theorem run_init_of_prepared {t : FileTree} (h : s.tree.pathExists c.directory p = false)
    (hprepared : prepared s.tree c.directory p = (t, .ok ())) :
    (∃ e, t.writeFile c.directory p defaults = .error e ∧
      (init p).run c s = .error (.file p e) { s with tree := t }) ∨
    ∃ t' r, t.writeFile c.directory p defaults = .ok t' ∧
      (init p).run c s = .ok p ⟨t', s.events ++ [.log r]⟩ := by
  have hfirst : (match p.parent? with
      | none => pure ()
      | some parent => Work.onTree parent fun t => t.makePath c.directory parent : Work Unit).run c s =
        .ok () { s with tree := t } := by
    unfold prepared at hprepared
    split at hprepared
    · cases hprepared
      rfl
    · rw [Work.run_onTree, hprepared]
  rw [run_init_of_free h, Work.run_bind_of_ok hfirst]
  cases hwrite : t.writeFile c.directory p defaults with
  | error e => exact .inl ⟨e, rfl, Work.run_bind_of_error (by rw [Work.run_onTree]; simp only [hwrite])⟩
  | ok t' =>
    rw [Work.run_bind_of_ok (by rw [Work.run_onTree]; simp only [hwrite]; rfl),
      Work.run_bind_of_ok (Work.run_log _)]
    exact .inr ⟨t', _, rfl, rfl⟩

/-- The path names nothing, but names a file with other content than the defaults once the directories
    above it have been created. -/
def Overwrites (t : FileTree) (cwd : Location) (p : Path) : Prop :=
  t.pathExists cwd p = false ∧ ∃ t', prepared t cwd p = (t', .ok ()) ∧
    ∃ k content executable, t'.entry cwd .follow p = .ok (k, .file content executable) ∧
      content ≠ defaults

theorem grows_prepared (t : FileTree) (cwd : Location) (p : Path) : t.Grows (prepared t cwd p).1 := by
  unfold prepared
  split
  · exact FileTree.Grows.refl t
  · exact FileTree.grows_makePath t cwd _

/-- Creating a settings file keeps all files unless it overwrites one. -/
theorem keepsFiles_init_iff :
    s.tree.KeepsFiles ((init p).leaves c s) ↔ ¬ Overwrites s.tree c.directory p := by
  cases hexists : s.tree.pathExists c.directory p with
  | true =>
    rw [Work.leaves_of_error (run_init_of_exists hexists)]
    refine iff_of_true (fun k content executable hfile => hfile) ?_
    rintro ⟨hfree, -⟩
    rw [hexists] at hfree
    cases hfree
  | false =>
    have hgrows := grows_prepared s.tree c.directory p
    rcases hprepared : prepared s.tree c.directory p with ⟨t, e | ⟨⟩⟩ <;> rw [hprepared] at hgrows
    · obtain ⟨q, hrun⟩ := run_init_of_unprepared hexists hprepared
      rw [Work.leaves_of_error hrun]
      refine iff_of_true (fun k content executable => hgrows.partOf k _) ?_
      rintro ⟨-, t', hprepared', -⟩
      rw [hprepared] at hprepared'
      cases hprepared'
    · have hover : ¬ Overwrites s.tree c.directory p ↔ ∀ k content executable,
          t.entry c.directory .follow p = .ok (k, .file content executable) → content = defaults := by
        constructor
        · intro h k content executable hentry
          exact Decidable.byContradiction fun hne =>
            h ⟨hexists, t, hprepared, k, content, executable, hentry, hne⟩
        · rintro h ⟨-, t', hprepared', k, content, executable, hentry, hne⟩
          rw [hprepared] at hprepared'
          cases hprepared'
          exact hne (h k content executable hentry)
      rw [hover]
      rcases run_init_of_prepared hexists hprepared with ⟨e, hwrite, hrun⟩ | ⟨t', r, hwrite, hrun⟩
      · rw [Work.leaves_of_error hrun]
        refine iff_of_true (fun k content executable => hgrows.partOf k _) ?_
        intro k content executable hentry
        obtain ⟨t', hwritten⟩ : ∃ t', t.writeFile c.directory p defaults = .ok t' :=
          FileTree.writeFile_of_file hentry
        rw [hwrite] at hwritten
        cases hwritten
      · rw [Work.leaves_of_ok hrun, ← FileTree.keepsFiles_writeFile_iff hwrite]
        exact forall_congr' fun k => forall_congr' fun content => forall_congr' fun executable =>
          imp_congr_left hgrows.file_iff.symm

/-- Only a path with `..` in it can name another file after its directories have been created. -/
theorem not_overwrites_of_no_up {t : FileTree} {cwd : Location}
    (hdown : [Bytes.dot, Bytes.dot] ∉ p.segments) : ¬ Overwrites t cwd p := by
  rintro ⟨hfree, t', hprepared, k, content, executable, hentry, -⟩
  have hchanged : t' ≠ t := by
    rintro rfl
    rw [FileTree.pathExists, hentry] at hfree
    cases hfree
  have hup : ∀ x ∈ p.names, Path.goesUp x = false := by
    intro x hx
    refine eq_false_of_ne_true fun hgo => hdown ?_
    obtain rfl : x = [Bytes.dot, Bytes.dot] := by simpa [Path.goesUp] using hgo
    exact (List.mem_filter.1 hx).1
  unfold prepared at hprepared
  split at hprepared
  · cases hprepared
    exact hchanged rfl
  next parent hparent =>
  have hparentUp : ∀ x ∈ parent.names, Path.goesUp x = false :=
    fun x hx => hup x (Path.names_subset_of_parent hparent hx)
  rcases FileTree.makeDirectories_fresh hparentUp hprepared with hsame | ⟨d, hd, hempty⟩
  · exact hchanged hsame
  · exact FileTree.not_entry_of_parent_empty hparent hup hd hempty k _ hentry

/-- A settings failure leaves everything as it was. -/
theorem run_init_eq_error_iff {m : String} :
    (init p).run c s = .error (.settings m) s' ↔
      s.tree.pathExists c.directory p = true ∧
      m = s!"{p.display} already exists; remove it first to regenerate defaults" ∧ s' = s := by
  cases hexists : s.tree.pathExists c.directory p with
  | true =>
    rw [run_init_of_exists hexists]
    simp [eq_comm]
  | false =>
    refine iff_of_false ?_ (by simp)
    rcases hprepared : prepared s.tree c.directory p with ⟨t, e | ⟨⟩⟩
    · obtain ⟨q, hrun⟩ := run_init_of_unprepared hexists hprepared
      simp [hrun]
    · rcases run_init_of_prepared hexists hprepared with ⟨e, -, hrun⟩ | ⟨t', r, -, hrun⟩ <;>
        simp [hrun]

/-- The settings file of a user is spelt without `..` exactly when the home is. -/
theorem up_mem_segments_homeFile (home : Path) :
    [Bytes.dot, Bytes.dot] ∈ (homeFile home).segments ↔ [Bytes.dot, Bytes.dot] ∈ home.segments := by
  have hdirectory : [Bytes.dot, Bytes.dot] ∉ Path.segments (Bytes.ofString ".docbuild") := by
    decide +kernel
  have hfile : [Bytes.dot, Bytes.dot] ∉ Path.segments (Bytes.ofString "docbuild.toml") := by
    decide +kernel
  rw [homeFile, homeDirectory, Path.up_mem_segments_join (by decide +kernel),
    Path.up_mem_segments_join (by decide +kernel), or_iff_left hfile, or_iff_left hdirectory]

/-- Creating a settings file fails with a settings error exactly when the path names something, and
    then changes nothing. Otherwise it keeps all files but the one that it may overwrite: a path with
    `..` in it can name nothing until its directories are created, and then name a file. The file of
    a user overwrites nothing while the home is spelt without `..`. -/
theorem init_keeps_files_iff (c : Context) (s : Session) :
    (∀ p : Path,
      (∀ m s', (init p).run c s = .error (.settings m) s' ↔
        s.tree.pathExists c.directory p = true ∧
        m = s!"{p.display} already exists; remove it first to regenerate defaults" ∧ s' = s) ∧
      (s.tree.KeepsFiles ((init p).leaves c s) ↔ ¬ Overwrites s.tree c.directory p) ∧
      ([Bytes.dot, Bytes.dot] ∉ p.segments → s.tree.KeepsFiles ((init p).leaves c s))) ∧
    ∀ home : Path, [Bytes.dot, Bytes.dot] ∉ home.segments →
      s.tree.KeepsFiles ((init (homeFile home)).leaves c s) := by
  have hplain (p : Path) (hdown : [Bytes.dot, Bytes.dot] ∉ p.segments) :
      s.tree.KeepsFiles ((init p).leaves c s) :=
    keepsFiles_init_iff.2 (not_overwrites_of_no_up hdown)
  refine ⟨fun p => ⟨fun _ _ => run_init_eq_error_iff, keepsFiles_init_iff, hplain p⟩, ?_⟩
  exact fun home hdown => hplain _ (mt (up_mem_segments_homeFile home).1 hdown)

/-- A settings file behind a missing directory and a `..` is overwritten. -/
theorem overwrites_of_missing_directory :
    let name := Bytes.ofString
    let c : Context := { directory := [], launch := fun _ _ => .error .zeroByte }
    let s : Session := { tree := FileTree.bare.put (name "docbuild.toml") [] (.file (name "mine") false) }
    let p : Path := name "new/../docbuild.toml"
    ((init p).leaves c s).get? [name "docbuild.toml"] = some (.file defaults false) ∧
      Overwrites s.tree c.directory p := by
  intro name c s p
  have hlost : ((init p).leaves c s).get? [name "docbuild.toml"] = some (.file defaults false) := by
    decide +kernel
  refine ⟨hlost, Classical.byContradiction fun hkept => ?_⟩
  have hfile := ((init_keeps_files_iff c s).1 p).2.1.2 hkept [name "docbuild.toml"] (name "mine") false
    (by decide +kernel)
  rw [hlost] at hfile
  exact absurd hfile (by decide +kernel)

end DocBuild.Settings
