import DocBuild.FileTree.Operations
import DocBuild.Proofs.FileTree.Lookup

namespace DocBuild.FileTree

variable {s t : FileTree} {cwd here k l : Location} {p : Path} {links : Nat} {steps : List Bytes}
  {content : Bytes} {executable : Bool} {e : Entry}

/-- Every file of `t` is in `s` with the same content. -/
def KeepsFiles (t s : FileTree) : Prop :=
  ∀ k content executable, t.get? k = some (.file content executable) →
    s.get? k = some (.file content executable)

/-- A slash at the end leads to directories only. -/
theorem Leads.directory_of_slash {last : Last} {front : List Bytes}
    (h : Leads t last links here (front ++ [[]]) l) : t.get? l = some .directory := by
  generalize hsteps : front ++ [[]] = steps at h
  induction h generalizing front with
  | done links here => simp at hsteps
  | enter hdirectory hmove hrest ih =>
    cases front with
    | nil =>
      obtain ⟨rfl, rfl⟩ := List.cons.inj hsteps
      cases hrest
      rw [hmove.eq_advance]
      exact hdirectory
    | cons first front => exact ih (List.cons.inj hsteps).2
  | @follow links here l step rest target hdirectory hmove hrest ih =>
    cases front with
    | nil =>
      obtain ⟨rfl, rfl⟩ := List.cons.inj hsteps
      cases hmove with
      | follow hname _ _ _ => exact absurd hname.not_stays (by decide)
    | cons first front =>
      obtain ⟨-, rfl⟩ := List.cons.inj hsteps
      exact ih (List.append_assoc _ _ _)

/-- A lookup that leads to a file leads to it for writing, too: no slash follows its name. -/
theorem Leads.create_of_follow (h : Leads t .follow links here steps l)
    (hfile : t.get? l = some (.file content executable)) : Leads t .create links here steps l := by
  have hslash (front : List Bytes) (links : Nat) (here : Location) :
      ¬ Leads t .follow links here (front ++ [[]]) l := by
    intro hleads
    rw [hleads.directory_of_slash] at hfile
    cases hfile
  induction h with
  | done links here => exact .done links here
  | @enter links here m l step rest hdirectory hmove hrest ih =>
    have hgo : ¬(Last.create = .create ∧ rest = [[]]) := by
      rintro ⟨-, rfl⟩
      exact hslash [] _ _ hrest
    refine .enter hdirectory ?_ (ih hfile hslash)
    cases hmove with
    | stay hstay => exact .stay hstay
    | up hgo hup => exact .up hgo hup
    | down hname _ hentry hstop =>
      exact .down hname hgo hentry fun target htarget => nomatch (hstop target htarget).1
    | create _ _ hlast _ => cases hlast
  | @follow links here l step rest target hdirectory hmove hrest ih =>
    have hgo : ¬(Last.create = .create ∧ rest = [[]]) := by
      rintro ⟨-, rfl⟩
      exact hslash _ _ _ hrest
    refine .follow hdirectory ?_ (ih hfile hslash)
    cases hmove with
    | follow hname _ hlink _ => exact .follow hname hgo hlink (by simp)

/-- A lookup for writing that leads to something follows the path like any other. -/
theorem Leads.follow_of_create (h : Leads t .create links here steps l) (hentry : t.get? l = some e) :
    Leads t .follow links here steps l := by
  induction h with
  | done links here => exact .done links here
  | enter hdirectory hmove hrest ih =>
    refine .enter hdirectory ?_ (ih hentry)
    cases hmove with
    | stay hstay => exact .stay hstay
    | up hgo hup => exact .up hgo hup
    | down hname _ hthere hstop =>
      exact .down hname (by simp) hthere fun target htarget => nomatch (hstop target htarget).1
    | create hname hfree _ hrest' =>
      subst hrest'
      cases hrest
      rw [hfree] at hentry
      cases hentry
  | follow hdirectory hmove _ ih =>
    refine .follow hdirectory ?_ (ih hentry)
    cases hmove with
    | follow hname _ hlink _ => exact .follow hname (by simp) hlink (by simp)

theorem locate_create_iff (hfile : t.get? l = some (.file content executable)) :
    t.locate cwd .create p = .ok l ↔ t.entry cwd .follow p = .ok (l, .file content executable) := by
  rw [entry_eq_ok_iff, locate_eq_ok_iff, locate_eq_ok_iff]
  constructor
  · rintro ⟨hcheck, hleads⟩
    exact ⟨⟨hcheck, hleads.follow_of_create hfile⟩, hfile⟩
  · rintro ⟨⟨hcheck, hleads⟩, -⟩
    exact ⟨hcheck, hleads.create_of_follow hfile⟩

/-- A file is written where the path leads: into the file that is there, or into a new one. -/
theorem writeFile_eq_ok (h : t.writeFile cwd p content = .ok s) :
    ∃ n l, t.locate cwd .create p = .ok (n :: l) ∧
      ((t.get? (n :: l) = none ∧ s = t.put n l (.file content false)) ∨
        ∃ old executable, t.get? (n :: l) = some (.file old executable) ∧
          s = t.put n l (.file content executable)) := by
  unfold writeFile at h
  obtain ⟨l, hlocate, h⟩ := Sequence.bind_eq_ok_iff.1 h
  split at h
  · cases h
  next n l =>
  refine ⟨n, l, hlocate, ?_⟩
  split at h
  · next hfree =>
    cases h
    exact .inl ⟨hfree, rfl⟩
  · next old executable hfile =>
    cases h
    exact .inr ⟨old, executable, hfile, rfl⟩
  · cases h

/-- A path that names a file can be written to. -/
theorem writeFile_of_file {old : Bytes}
    (hentry : t.entry cwd .follow p = .ok (l, .file old executable)) :
    ∃ s, t.writeFile cwd p content = .ok s := by
  have hfile := (entry_eq_ok_iff.1 hentry).2
  have hlocate := (locate_create_iff hfile).2 hentry
  cases l with
  | nil =>
    rw [get?_root] at hfile
    cases hfile
  | cons n l =>
    refine ⟨t.put n l (.file content executable), Sequence.bind_eq_ok_iff.2 ⟨_, hlocate, ?_⟩⟩
    dsimp only
    rw [hfile]
    rfl

theorem get?_put_of_file {n : Name} {old : Bytes} (hfile : t.get? (n :: l) = some (.file old executable))
    (k : Location) : (t.put n l e).get? k = if k = n :: l then some e else t.get? k := by
  refine get?_put ?_ k
  simp only [hasPlace, isDirectory, get?_parent hfile, hfile]
  rfl

theorem keepsFiles_put {n : Name} (hfree : t.get? (n :: l) = none) : t.KeepsFiles (t.put n l e) := by
  intro k content executable hfile
  rw [get?_put_of_ne, hfile]
  rintro rfl
  rw [hfree] at hfile
  cases hfile

/-- Writing keeps the files that were there unless the path names one with other content. -/
theorem keepsFiles_writeFile_iff (h : t.writeFile cwd p content = .ok s) :
    t.KeepsFiles s ↔
      ∀ k old executable, t.entry cwd .follow p = .ok (k, .file old executable) → old = content := by
  obtain ⟨n, l, hlocate, ⟨hfree, rfl⟩ | ⟨old, executable, hfile, rfl⟩⟩ := writeFile_eq_ok h
  · refine iff_of_true (keepsFiles_put hfree) fun k old executable hentry => ?_
    have hfile := (entry_eq_ok_iff.1 hentry).2
    have hsame := (locate_create_iff hfile).2 hentry
    rw [hlocate] at hsame
    cases hsame
    rw [hfree] at hfile
    cases hfile
  · have hentry := (locate_create_iff hfile).1 hlocate
    constructor
    · intro hkeeps k old' executable' hentry'
      rw [hentry] at hentry'
      cases hentry'
      have hnew := hkeeps _ _ _ hfile
      rw [get?_put_of_file hfile, if_pos rfl] at hnew
      cases hnew
      rfl
    · intro hsame k old' executable' hfile'
      rw [get?_put_of_file hfile]
      split
      · next heq =>
        subst heq
        rw [← hsame _ _ _ hentry, ← hfile, hfile']
      · exact hfile'

/-- What is to be created has a directory to lie in. -/
theorem Leads.directory_of_free {last : Last} (h : Leads t last links here steps l)
    (hfree : t.get? l = none) :
    steps = [] ∧ l = here ∨ ∃ n d, l = n :: d ∧ t.get? d = some .directory := by
  induction h with
  | done links here => exact .inl ⟨rfl, rfl⟩
  | @enter links here m l step rest hdirectory hmove _ ih =>
    refine .inr ?_
    obtain ⟨-, rfl⟩ | hheld := ih hfree
    · cases hmove with
      | stay _ => simp [hdirectory] at hfree
      | up _ _ =>
        cases here with
        | nil => simp at hfree
        | cons n d => simp [get?_parent hdirectory] at hfree
      | down _ _ hentry _ => simp [hentry] at hfree
      | create _ _ _ _ => exact ⟨_, _, rfl, hdirectory⟩
    · exact hheld
  | @follow links here l step rest target hdirectory _ _ ih =>
    refine .inr ?_
    obtain ⟨-, rfl⟩ | hheld := ih hfree
    · -- an empty target would lead back to a directory
      unfold Path.origin at hfree
      split at hfree <;> simp [hdirectory] at hfree
    · exact hheld

/-- Where a path leads for writing, it leads for reading once a file is there: the entry at its end is
    the only one that writing changes, and no lookup goes on behind it. -/
theorem Leads.follow_of_put {n : Name} (h : Leads t .create links here steps (n :: l))
    (hplace : t.hasPlace n l = true) (hlink : ∀ target, t.get? (n :: l) ≠ some (.link target)) :
    Leads (t.put n l (.file content executable)) .follow links here steps (n :: l) := by
  have hput := get?_put (e := .file content executable) hplace
  have hother (k : Location) (e : Entry) (hfile : ∀ b x, e ≠ .file b x)
      (hentry : t.get? k = some e) : (t.put n l (.file content executable)).get? k = some e := by
    rw [hput, if_neg, hentry]
    rintro rfl
    cases e with
    | directory => simp [hasPlace, isDirectory, hentry] at hplace
    | file b x => exact hfile b x rfl
    | link target => exact hlink target hentry
  generalize hend : n :: l = m at h
  induction h with
  | done links here => exact .done links here
  | @enter links here k m step rest hdirectory hmove hrest ih =>
    refine .enter (hother here .directory nofun hdirectory) ?_ (ih hend)
    cases hmove with
    | stay hstay => exact .stay hstay
    | up hgo hup => exact .up hgo hup
    | @down hname _ e hentry hstop =>
      have hthere : ∃ f, (t.put n l (.file content executable)).get? (step :: here) = some f ∧
          ∀ target, f ≠ .link target := by
        rw [hput]
        split
        · exact ⟨_, rfl, nofun⟩
        · exact ⟨e, hentry, fun target htarget => nomatch (hstop target htarget).1⟩
      obtain ⟨f, hf, hno⟩ := hthere
      exact .down hname (by simp) hf fun target htarget => absurd htarget (hno target)
    | create hname _ _ hend' =>
      subst hend'
      cases hrest
      have hfile : (t.put n l (.file content executable)).get? (step :: here) =
          some (.file content executable) := by
        rw [hput, if_pos hend.symm]
      exact .down hname (by simp) hfile nofun
  | @follow links here m step rest target hdirectory hmove _ ih =>
    refine .follow (hother here .directory nofun hdirectory) ?_ (ih hend)
    cases hmove with
    | follow hname _ hentry _ => exact .follow hname (by simp) (hother _ _ nofun hentry) (by simp)

/-- After a file was written, its path names a file with that content. -/
theorem entry_of_writeFile (h : t.writeFile cwd p content = .ok s) :
    ∃ k executable, s.entry cwd .follow p = .ok (k, .file content executable) := by
  obtain ⟨n, l, hlocate, hwritten⟩ := writeFile_eq_ok h
  obtain ⟨hcheck, hleads⟩ := locate_eq_ok_iff.1 hlocate
  have hplace : t.hasPlace n l = true := by
    obtain ⟨hfree, -⟩ | ⟨old, executable, hfile, -⟩ := hwritten
    · have hsteps : p.steps ≠ [] := by
        refine Path.steps_ne_nil ?_
        rintro rfl
        cases hcheck
      obtain ⟨hnil, -⟩ | ⟨n', d, heq, hdirectory⟩ := hleads.directory_of_free hfree
      · exact absurd hnil hsteps
      · cases heq
        simp [hasPlace, isDirectory, hdirectory, hfree]
    · simp [hasPlace, isDirectory, get?_parent hfile, hfile]
  have hlink : ∀ target, t.get? (n :: l) ≠ some (.link target) := by
    obtain ⟨hfree, -⟩ | ⟨old, executable, hfile, -⟩ := hwritten
    · simp [hfree]
    · simp [hfile]
  obtain ⟨executable, rfl⟩ : ∃ executable, s = t.put n l (.file content executable) := by
    obtain ⟨-, rfl⟩ | ⟨-, executable, -, rfl⟩ := hwritten
    · exact ⟨false, rfl⟩
    · exact ⟨executable, rfl⟩
  refine ⟨n :: l, executable, entry_eq_ok_iff.2 ⟨locate_eq_ok_iff.2 ⟨hcheck, ?_⟩, ?_⟩⟩
  · exact hleads.follow_of_put hplace hlink
  · rw [get?_put hplace, if_pos rfl]

theorem readText_of_entry {text : String}
    (h : t.entry cwd .follow p = .ok (l, .file (Bytes.ofString text) executable)) :
    t.readText cwd p = .ok text := by
  simp only [readText, readFile, h, bind, Except.bind, pure, Except.pure, Bytes.toString?_ofString]

end DocBuild.FileTree
