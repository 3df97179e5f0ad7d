import DocBuild.Proofs.Sequence
import DocBuild.Proofs.Work.Requests
import DocBuild.Settings.Store
import Mathlib.Data.List.Induction

namespace DocBuild

theorem Failure.exitStatus_of_not_builder {f : Failure} (h : f.isBuilder = false) :
    f.exitStatus = 1 := by
  cases f with
  | builder => cases h
  | _ => rfl

namespace Toml.Entries

/-- The last value that a key is given. -/
def last? (entries : Entries) (text : String) : Option Node :=
  get? entries.reverse text

theorem last?_concat (entries : Entries) (e : Key × Node) (text : String) :
    last? (entries ++ [e]) text = if e.1.text = text then some e.2 else last? entries text := by
  rw [last?, List.reverse_concat, get?, List.find?_cons]
  by_cases h : e.1.text = text <;> simp [h, last?, get?]

end Toml.Entries

namespace Field

@[simp] theorem item_keyed (key : Toml.Key) (node : Toml.Node) :
    (keyed key node).item = node.item := rfl

/-- The text that a value is, if it is one. -/
def textIn? : Toml.Value → Option String
  | .string text => some text
  | _ => none

theorem textIn?_of_text {node : Toml.Node} {s : String} (h : text node = .ok s) :
    textIn? node.item = some s := by
  unfold text at h
  split at h
  · next hitem => rw [hitem, ← Except.ok.inj h, textIn?]
  · cases h

variable {σ τ : Type} {fields : List (Field σ)} {view : σ → τ}
  {fallback : τ} {start s : σ}

/-- Storing entries leaves under a name what the last entry of that name says, or what was there
    from the start, if one field stores the name and the others have no part in it. -/
theorem view_storeEntries (view : σ → τ) (value : Toml.Value → Option τ) (name : String) {entries : Toml.Entries}
    (hfield : ∃ f ∈ fields, f.name = name)
    (hstores : ∀ f ∈ fields, f.name = name → ∀ e ∈ entries, ∀ s s',
      f.store (keyed e.1 e.2) s = .ok s' → view s' = (value e.2.item).getD fallback)
    (hkeeps : ∀ f ∈ fields, f.name ≠ name → ∀ node s s', f.store node s = .ok s' →
      view s' = view s)
    (hstart : view start = fallback) (h : storeEntries fields start entries = .ok s) :
    view s = ((entries.last? name).bind (value ·.item)).getD fallback := by
  induction entries using List.reverseRecOn generalizing s with
  | nil =>
    obtain rfl := Except.ok.inj h
    exact hstart
  | append_singleton entries e ih =>
    obtain ⟨key, node⟩ := e
    rw [storeEntries, List.foldlM_append, Sequence.bind_eq_ok_iff] at h
    obtain ⟨before, hbefore, h⟩ := h
    rw [List.foldlM_cons, Sequence.bind_eq_ok_iff] at h
    obtain ⟨after, hlast, hafter⟩ := h
    obtain rfl := Except.ok.inj hafter
    have hview := ih (fun f hf hname e he => hstores f hf hname e (List.mem_append_left _ he)) hbefore
    rw [Toml.Entries.last?_concat]
    cases hfound : fields.find? (·.name = key.text) with
    | none =>
      obtain ⟨f, hf, hname⟩ := hfield
      have hother := List.find?_eq_none.1 hfound f hf
      rw [hname, decide_eq_true_iff] at hother
      simp only [hfound] at hlast
      rw [if_neg (Ne.symm hother), ← hview, ← Except.ok.inj hlast]
    | some f =>
      have hf : f ∈ fields := List.mem_of_find?_eq_some hfound
      have hkey : f.name = key.text := by simpa using List.find?_some hfound
      simp only [hfound] at hlast
      by_cases hname : key.text = name
      · rw [if_pos hname]
        exact hstores f hf (hkey.trans hname) (key, node) (by simp) _ _ hlast
      · rw [if_neg hname, ← hview]
        exact hkeeps f hf (fun h => hname (hkey.symm.trans h)) _ _ _ hlast

/-- Storing elements by position changes nothing that none of the fields has a part in. -/
theorem view_storeItems (view : σ → τ) {items : List Toml.Node}
    (hkeeps : ∀ f ∈ fields, ∀ node s s', f.store node s = .ok s' → view s' = view s)
    (h : storeItems fields start items = .ok s) : view s = view start := by
  induction fields generalizing start items with
  | nil =>
    obtain rfl := Except.ok.inj h
    rfl
  | cons f fields ih =>
    cases items with
    | nil =>
      obtain rfl := Except.ok.inj h
      rfl
    | cons node items =>
      rw [storeItems, List.zip_cons_cons, List.foldlM_cons, Sequence.bind_eq_ok_iff] at h
      obtain ⟨next, hfirst, hrest⟩ := h
      rw [ih (fun g hg => hkeeps g (List.mem_cons_of_mem f hg)) hrest]
      exact hkeeps f List.mem_cons_self _ _ _ hfirst

end Field

namespace BuilderSection

/-- The program that a section for the builder mentions, by its key or as the first element. -/
def programIn? : Toml.Value → Option String
  | .table _ entries => (Toml.Entries.last? entries "program").bind (Field.textIn? ·.item)
  | .array (first :: _) => Field.textIn? first.item
  | _ => none

/-- Only one field of the section has a part in the program. -/
theorem program_kept {f : Field BuilderSection} (hf : f ∈ fields) (hname : f.name ≠ "program")
    {node : Toml.Node} {b b' : BuilderSection} (h : f.store node b = .ok b') :
    b'.program = b.program := by
  simp only [fields, List.mem_cons, List.not_mem_nil, or_false] at hf
  rcases hf with rfl | rfl | rfl | rfl
  · exact absurd rfl hname
  all_goals
    obtain ⟨text, -, h⟩ := Sequence.bind_eq_ok_iff.1 h
    obtain rfl := Except.ok.inj h
    rfl

theorem program_stored {node : Toml.Node} {b b' : BuilderSection}
    (h : (do return { b with program := ← Field.text node } : Except Toml.Mismatch _) = .ok b') :
    Field.textIn? node.item = some b'.program := by
  obtain ⟨text, htext, h⟩ := Sequence.bind_eq_ok_iff.1 h
  obtain rfl := Except.ok.inj h
  exact Field.textIn?_of_text htext

/-- A section for the builder that does not mention the program keeps the default. -/
theorem program_of_storeSection {expected : String} {node : Toml.Node} {b : BuilderSection}
    (h : Field.storeSection fields {} expected node = .ok b) :
    b.program = (programIn? node.item).getD ({} : BuilderSection).program := by
  have hkeeps (f : Field BuilderSection) (hf : f ∈ fields) (hname : f.name ≠ "program") (node b b')
      (h : f.store node b = .ok b') : b'.program = b.program := program_kept hf hname h
  have hitems {items : List Toml.Node} {b : BuilderSection}
      (h : Field.storeItems fields {} items = .ok b) :
      b.program = (programIn? (.array items)).getD ({} : BuilderSection).program := by
    cases items with
    | nil =>
      obtain rfl := Except.ok.inj h
      rfl
    | cons first rest =>
      obtain ⟨next, hfirst, hrest⟩ := Sequence.bind_eq_ok_iff.1 h
      rw [programIn?, program_stored hfirst, Option.getD_some]
      refine Field.view_storeItems BuilderSection.program
        (fun f hf => hkeeps f (List.mem_cons_of_mem _ hf) ?_) hrest
      simp only [List.mem_cons, List.not_mem_nil, or_false] at hf
      rcases hf with rfl | rfl | rfl <;> decide
  unfold Field.storeSection at h
  split at h
  · next kind entries hitem =>
    rw [hitem]
    refine Field.view_storeEntries BuilderSection.program Field.textIn? "program"
      ⟨_, List.mem_cons_self, rfl⟩ ?_ hkeeps rfl h
    intro f hf hname e he b b' hstore
    simp only [List.mem_cons, List.not_mem_nil, or_false] at hf
    rcases hf with rfl | rfl | rfl | rfl
    · have hstored := program_stored hstore
      rw [Field.item_keyed] at hstored
      rw [hstored, Option.getD_some]
    all_goals exact absurd hname (by decide)
  · next items hitem =>
    rw [hitem]
    exact hitems h
  · next rows hitem =>
    rw [hitem]
    cases rows <;> exact hitems h
  · next hitem =>
    rw [hitem]
    obtain rfl := Except.ok.inj h
    rfl
  · cases h

end BuilderSection

namespace Settings

variable {c : Context} {session : Session} {t : FileTree} {cwd : Location} {p home : Path}
  {s : Settings} {launch : Launcher}

/-- The builder's program that a settings file mentions. -/
def programIn? (root : Toml.Entries) : Option String :=
  (Toml.Entries.last? root "builder").bind (BuilderSection.programIn? ·.item)

/-- The builder's program is the one that the file mentions, else the default. -/
theorem program_of_parse {text : String} (h : parse text = .ok s) :
    ∃ root, Toml.document? text.toList = some root ∧
      s.builder.program = (programIn? root).getD ({} : BuilderSection).program := by
  unfold parse at h
  split at h
  · cases h
  next root hdocument =>
  rw [Sequence.mapError_eq_ok_iff] at h
  refine ⟨root, hdocument, ?_⟩
  refine Field.view_storeEntries (fun s => s.builder.program) BuilderSection.programIn? "builder"
    ⟨_, List.mem_cons_of_mem _ List.mem_cons_self, rfl⟩ ?_ ?_ rfl h
  · intro f hf hname e he s s' hstore
    simp only [List.mem_cons, List.not_mem_nil, or_false] at hf
    rcases hf with rfl | rfl | rfl
    · exact absurd hname (by decide)
    · obtain ⟨b, hb, hstore⟩ := Sequence.bind_eq_ok_iff.1 hstore
      obtain rfl := Except.ok.inj hstore
      have hprogram := BuilderSection.program_of_storeSection hb
      rwa [Field.item_keyed] at hprogram
    · exact absurd hname (by decide)
  · intro f hf hname node s s' hstore
    simp only [List.mem_cons, List.not_mem_nil, or_false] at hf
    rcases hf with rfl | rfl | rfl
    · obtain ⟨l, -, hstore⟩ := Sequence.bind_eq_ok_iff.1 hstore
      obtain rfl := Except.ok.inj hstore
      rfl
    · exact absurd rfl hname
    · obtain ⟨r, -, hstore⟩ := Sequence.bind_eq_ok_iff.1 hstore
      obtain rfl := Except.ok.inj hstore
      rfl

/-- The settings that a file holds. -/
def heldBy (t : FileTree) (cwd : Location) (p : Path) : Except Failure Settings :=
  match t.readText cwd p with
  | .error e => .error (.file p e)
  | .ok text =>
    match parse text with
    | .error e => .error (.settings s!"failed to parse {p.display}: {e.report text}")
    | .ok s => .ok s

/-- The settings of the file that is named, else of the user's file, else the defaults. -/
def configured (t : FileTree) (cwd : Location) (named home : Option Path) :
    Except Failure Settings :=
  match named with
  | some p => heldBy t cwd p
  | none => do
    let home ← knownHome home
    if t.pathExists cwd (homeFile home) then heldBy t cwd (homeFile home) else .ok {}

theorem configured_home : configured t cwd none (some home) =
    if t.pathExists cwd (homeFile home) then heldBy t cwd (homeFile home) else .ok {} := rfl

/-- Stored settings are the defaults if no file is named and the user has none. Otherwise they are
    those of a file, whose builder is the one it mentions or the default one. -/
theorem configured_eq_ok {named home : Option Path} (h : configured t cwd named home = .ok s) :
    s = {} ∨ ∃ p text root, t.readText cwd p = .ok text ∧
      parse text = .ok s ∧ Toml.document? text.toList = some root ∧
      s.builder.program = (programIn? root).getD ({} : BuilderSection).program := by
  have hheld {p : Path} (h : heldBy t cwd p = .ok s) : ∃ p text root,
      t.readText cwd p = .ok text ∧ parse text = .ok s ∧
      Toml.document? text.toList = some root ∧
      s.builder.program = (programIn? root).getD ({} : BuilderSection).program := by
    unfold heldBy at h
    split at h
    · cases h
    next text htext =>
    split at h
    · cases h
    next s' hparse =>
    obtain rfl := Except.ok.inj h
    obtain ⟨root, hroot, hprogram⟩ := program_of_parse hparse
    exact ⟨p, text, root, htext, hparse, hroot, hprogram⟩
  unfold configured at h
  cases named with
  | some p => exact .inr (hheld h)
  | none =>
    obtain ⟨known, -, h⟩ := Sequence.bind_eq_ok_iff.1 h
    split at h
    · exact .inr (hheld h)
    · exact .inl (Except.ok.inj h).symm

/-- Reading the settings runs no builder, and so does not fail as one. -/
theorem isBuilder_of_configured {named home : Option Path} {f : Failure}
    (h : configured t cwd named home = .error f) : f.isBuilder = false := by
  have hheld {p : Path} (h : heldBy t cwd p = .error f) : f.isBuilder = false := by
    unfold heldBy at h
    split at h
    · obtain rfl := Except.error.inj h
      rfl
    · split at h
      · obtain rfl := Except.error.inj h
        rfl
      · cases h
  unfold configured at h
  cases named with
  | some p => exact hheld h
  | none =>
    rcases Sequence.bind_eq_error_iff.1 h with hunknown | ⟨known, -, h⟩
    · cases home with
      | some known => cases hunknown
      | none =>
        obtain rfl := Except.error.inj hunknown
        rfl
    · split at h
      · exact hheld h
      · cases h

/-- A settings file that cannot be read or understood ends a run with status 1. -/
theorem exitStatus_of_configured {named home : Option Path} {f : Failure}
    (h : configured t cwd named home = .error f) : f.exitStatus = 1 :=
  Failure.exitStatus_of_not_builder (isBuilder_of_configured h)

theorem effect_load :
    (load p).effect c session = (session.tree, heldBy session.tree c.directory p) := by
  unfold load heldBy Work.effect
  rw [Work.run_bind_of_ok Work.run_read, Work.run_bind_of_ok Work.run_tree]
  cases session.tree.readText c.directory p with
  | error e => rfl
  | ok text =>
    dsimp only
    cases parse text <;> rfl

theorem effect_loadHome : (loadHome home).effect c session =
    (session.tree, configured session.tree c.directory none (some home)) := by
  rw [configured_home]
  unfold loadHome
  rw [Work.effect_bind_of_ok Work.run_read, Work.effect_bind_of_ok Work.run_tree]
  split
  · exact effect_load
  · rfl

/-- Loading runs no program. -/
theorem run_load_congr : (load p).run { c with launch } session = (load p).run c session := by
  unfold load
  rw [Work.run_bind_of_ok Work.run_read, Work.run_bind_of_ok Work.run_read,
    Work.run_bind_of_ok Work.run_tree, Work.run_bind_of_ok Work.run_tree]
  cases session.tree.readText c.directory p with
  | error e => rfl
  | ok text =>
    dsimp only
    cases parse text <;> rfl

theorem run_loadHome_congr :
    (loadHome home).run { c with launch } session = (loadHome home).run c session := by
  unfold loadHome
  rw [Work.run_bind_of_ok Work.run_read, Work.run_bind_of_ok Work.run_read,
    Work.run_bind_of_ok Work.run_tree, Work.run_bind_of_ok Work.run_tree]
  dsimp only
  split
  · exact run_load_congr
  · rfl

end Settings
end DocBuild
