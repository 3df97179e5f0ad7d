import DocBuild.Proofs.FileTree.Writing
import DocBuild.Proofs.Settings.Fields
import DocBuild.Proofs.Toml.Spelling

namespace DocBuild.Settings

open Toml (Data Mapping Outline)

variable {x y : Setting} {p : Part} {d sec sec' : Data} {m m' m'' : Mapping} {s s' : Settings}

/-- A change in a section that concerns none of its settings: the order of its keys, a key that no
    setting has, or elements behind those of the settings. -/
inductive Part.Immaterial (p : Part) : Data → Data → Prop where
  | order {m m' : Mapping} (hperm : m.Perm m') (hkeys : (m.map Prod.fst).Nodup) :
    p.Immaterial (.table m) (.table m')
  | unknown {k : String} {d : Data} {m : Mapping} (hkey : ∀ x : Setting, x.part = p → x.key ≠ k) :
    p.Immaterial (.table ((k, d) :: m)) (.table m)
  | surplus {items more : List Data} (hlength : ∀ x : Setting, x.part = p → x.position < items.length) :
    p.Immaterial (.array (items ++ more)) (.array items)

/-- Changes that concern no setting, one after the other: in a section, in the order of the keys and
    sections, or in what a key says that is no section's. -/
inductive Immaterial : Mapping → Mapping → Prop where
  | order {m m' : Mapping} (hperm : m.Perm m') (hkeys : (m.map Prod.fst).Nodup) : Immaterial m m'
  | unknown {k : String} {d : Data} {m : Mapping} (hkey : ∀ p : Part, p.name ≠ k) :
    Immaterial ((k, d) :: m) m
  | within {p : Part} {sec sec' : Data} {m : Mapping} (hsection : p.Immaterial sec sec') :
    Immaterial ((p.name, sec) :: m) ((p.name, sec') :: m)
  | symm {m m' : Mapping} (h : Immaterial m m') : Immaterial m' m
  | trans {m m' m'' : Mapping} (h : Immaterial m m') (h' : Immaterial m' m'') : Immaterial m m''

/-- Documents that agree on every setting, and on whether every section can be one. -/
structure Alike (m m' : Mapping) : Prop where
  sections : ∀ p : Part, (∀ d, m.lookup p.name = some d → d.IsSection) ↔
    ∀ d, m'.lookup p.name = some d → d.IsSection
  mentions : ∀ x : Setting, x.mention? m = x.mention? m'

theorem Alike.symm (h : Alike m m') : Alike m' m :=
  ⟨fun p => (h.sections p).symm, fun x => (h.mentions x).symm⟩

theorem Alike.trans (h : Alike m m') (h' : Alike m' m'') : Alike m m'' :=
  ⟨fun p => (h.sections p).trans (h'.sections p), fun x => (h.mentions x).trans (h'.mentions x)⟩

theorem Alike.of_lookup (h : ∀ p : Part, m.lookup p.name = m'.lookup p.name) : Alike m m' :=
  ⟨fun p => by rw [h], fun x => by rw [Setting.mention?, Setting.mention?, h]⟩

theorem Alike.readable_iff (h : Alike m m') : Readable m ↔ Readable m' := by
  constructor
  · intro hread
    refine ⟨fun p => (h.sections p).1 (hread.sections p), fun x d hd => hread.values x d ?_⟩
    rw [h.mentions, hd]
  · intro hread
    refine ⟨fun p => (h.sections p).2 (hread.sections p), fun x d hd => hread.values x d ?_⟩
    rw [← h.mentions, hd]

theorem Part.Immaterial.isSection_iff (h : p.Immaterial sec sec') :
    sec.IsSection ↔ sec'.IsSection := by
  cases h <;> exact Iff.rfl

theorem Part.Immaterial.field?_eq (h : p.Immaterial sec sec') (hx : x.part = p) :
    x.field? sec = x.field? sec' := by
  cases h with
  | order hperm hkeys => exact Toml.Mapping.lookup_perm hperm hkeys
  | unknown hkey => rw [Setting.field?, Toml.Mapping.lookup_cons, if_neg (hkey x hx), Setting.field?]
  | surplus hlength => exact List.getElem?_append_left (hlength x hx)

theorem Immaterial.alike (h : Immaterial m m') : Alike m m' := by
  induction h with
  | order hperm hkeys => exact .of_lookup fun p => Toml.Mapping.lookup_perm hperm hkeys
  | unknown hkey =>
    exact .of_lookup fun p => by rw [Toml.Mapping.lookup_cons, if_neg (hkey p)]
  | @within p sec sec' m hsection =>
    refine ⟨fun q => ?_, fun x => ?_⟩
    · rw [Toml.Mapping.lookup_cons, Toml.Mapping.lookup_cons]
      split
      · simpa using hsection.isSection_iff
      · exact Iff.rfl
    · rw [Setting.mention?, Setting.mention?, Toml.Mapping.lookup_cons, Toml.Mapping.lookup_cons]
      split
      · next hname => exact hsection.field?_eq (Part.name_injective hname)
      · rfl
  | symm _ ih => exact ih.symm
  | trans _ _ ih ih' => exact ih.trans ih'

/-- The section with another value for a setting that it mentions. -/
def Setting.replaceIn (x : Setting) (d : Data) : Data → Data
  | .table m => .table (Mapping.update x.key (fun _ => d) m)
  | .array items => .array (items.set x.position d)
  | other => other

/-- The document with another value for a setting that it mentions. -/
def Setting.replace (x : Setting) (d : Data) (m : Mapping) : Mapping :=
  m.update x.part.name (x.replaceIn d)

theorem Setting.isSection_replaceIn : (x.replaceIn d sec).IsSection ↔ sec.IsSection := by
  cases sec <;> exact Iff.rfl

theorem Setting.field?_replaceIn (h : (x.field? sec).isSome) :
    x.field? (x.replaceIn d sec) = some d := by
  cases sec with
  | table m =>
    obtain ⟨old, hold⟩ := Option.isSome_iff_exists.1 h
    rw [Setting.field?] at hold
    rw [Setting.replaceIn, Setting.field?, Toml.Mapping.lookup_update, if_pos rfl, hold, Option.map_some]
  | array items =>
    obtain ⟨hlength, -⟩ := List.getElem?_eq_some_iff.1 (Option.get_mem h)
    exact List.getElem?_set_self hlength
  | _ => cases h

theorem Setting.field?_replaceIn_of_ne (hpart : y.part = x.part) (hne : y ≠ x) :
    y.field? (x.replaceIn d sec) = y.field? sec := by
  cases sec with
  | table m =>
    have hkey : y.key ≠ x.key := fun h => hne (Setting.eq_of_key hpart h)
    rw [Setting.replaceIn, Setting.field?, Toml.Mapping.lookup_update, if_neg hkey, Setting.field?]
  | array items =>
    have hposition : x.position ≠ y.position := fun h => hne (Setting.eq_of_position hpart h.symm)
    exact List.getElem?_set_ne hposition
  | _ => rfl

theorem Setting.mention?_replace (h : (x.mention? m).isSome) :
    x.mention? (x.replace d m) = some d := by
  obtain ⟨old, hold⟩ := Option.isSome_iff_exists.1 h
  obtain ⟨sec, hsec, hfield⟩ := Option.bind_eq_some_iff.1 hold
  rw [Setting.mention?, Setting.replace, Toml.Mapping.lookup_update, if_pos rfl, hsec, Option.map_some,
    Option.bind_some]
  exact Setting.field?_replaceIn (Option.isSome_of_eq_some hfield)

theorem Setting.mention?_replace_of_ne (hne : y ≠ x) : y.mention? (x.replace d m) = y.mention? m := by
  rw [Setting.mention?, Setting.mention?, Setting.replace, Toml.Mapping.lookup_update]
  split
  · next hname =>
    have hpart := Part.name_injective hname
    rw [hpart]
    cases hsec : m.lookup x.part.name with
    | none => rfl
    | some sec => exact Setting.field?_replaceIn_of_ne hpart hne
  · rfl

theorem Setting.readable_replace_iff (hreadable : Readable m) (h : (x.mention? m).isSome) :
    Readable (x.replace d m) ↔ (x.content? d).isSome := by
  constructor
  · intro hreplaced
    exact hreplaced.values x d (Setting.mention?_replace h)
  · intro hcontent
    refine ⟨fun p sec hsec => ?_, fun y d' hd' => ?_⟩
    · rw [Setting.replace, Toml.Mapping.lookup_update] at hsec
      split at hsec
      · next hname =>
        obtain ⟨old, hold, rfl⟩ := Option.map_eq_some_iff.1 hsec
        rw [Setting.isSection_replaceIn]
        exact hreadable.sections x.part old hold
      · exact hreadable.sections p sec hsec
    · by_cases hy : y = x
      · subst hy
        rw [Setting.mention?_replace h] at hd'
        obtain rfl := Option.some.inj hd'
        exact hcontent
      · rw [Setting.mention?_replace_of_ne hy] at hd'
        exact hreadable.values y d' hd'

section

variable {root root' : Toml.Entries}

/-- A document is stored when it is readable, and then leaves in each setting what it says for it, or
    the default. -/
theorem ofDocument_eq_ok_iff (hdistinct : root.Distinct) : ofDocument root = .ok s ↔
    Readable root.data ∧
      ∀ x : Setting, x.get s = ((x.mention? root.data).bind x.content?).getD (x.get {}) := by
  constructor
  · intro h
    exact ⟨(exists_ofDocument_iff hdistinct).1 ⟨s, h⟩, get_ofDocument hdistinct h⟩
  · rintro ⟨hreadable, hget⟩
    obtain ⟨s', hs'⟩ := (exists_ofDocument_iff hdistinct).2 hreadable
    have hsame : s' = s := ext_get fun x => by rw [get_ofDocument hdistinct hs', hget]
    rw [hs', hsame]

theorem ofDocument_congr (hdistinct : root.Distinct) (hdistinct' : root'.Distinct)
    (h : Alike root.data root'.data) : ofDocument root = .ok s ↔ ofDocument root' = .ok s := by
  rw [ofDocument_eq_ok_iff hdistinct, ofDocument_eq_ok_iff hdistinct', h.readable_iff]
  simp only [h.mentions]

/-- Another value for one setting is stored when it is of the right kind, and changes nothing else. -/
theorem ofDocument_replace_iff (hdistinct : root.Distinct) (hdistinct' : root'.Distinct)
    (hmention : (x.mention? root.data).isSome) (hreplace : root'.data = x.replace d root.data)
    (h : ofDocument root = .ok s) : ofDocument root' = .ok s' ↔
      x.content? d = some (x.get s') ∧ ∀ y : Setting, y ≠ x → y.get s' = y.get s := by
  obtain ⟨hreadable, hget⟩ := (ofDocument_eq_ok_iff hdistinct).1 h
  rw [ofDocument_eq_ok_iff hdistinct', hreplace, Setting.readable_replace_iff hreadable hmention]
  constructor
  · rintro ⟨hcontent, hget'⟩
    obtain ⟨a, ha⟩ := Option.isSome_iff_exists.1 hcontent
    refine ⟨?_, fun y hy => ?_⟩
    · rw [hget' x, Setting.mention?_replace hmention, Option.bind_some, ha, Option.getD_some]
    · rw [hget' y, Setting.mention?_replace_of_ne hy, ← hget y]
  · rintro ⟨hcontent, hothers⟩
    refine ⟨Option.isSome_of_eq_some hcontent, fun y => ?_⟩
    by_cases hy : y = x
    · subst hy
      rw [Setting.mention?_replace hmention, Option.bind_some, hcontent, Option.getD_some]
    · rw [hothers y hy, Setting.mention?_replace_of_ne hy, ← hget y]

end

/-- A file that is a document, and where it is loaded from. -/
structure DocumentFile where
  context : Context
  session : Session
  path : Path
  text : String
  root : Toml.Entries
  reads : session.tree.readText context.directory path = .ok text
  document : Toml.document? text.toList = some root

namespace DocumentFile

variable {f g : DocumentFile}

/-- What the file says. -/
def data (f : DocumentFile) : Mapping :=
  f.root.data

/-- Loading the file succeeds with these settings and changes nothing. -/
def Loads (f : DocumentFile) (s : Settings) : Prop :=
  (load f.path).effect f.context f.session = (f.session.tree, .ok s)

/-- Line by line the files say the same, but one of them has a header for a table that the other
    gives in braces or with dotted keys. -/
def Respelt (f g : DocumentFile) : Prop :=
  ∃ o o', Toml.outline? f.text.toList = some o ∧ Toml.outline? g.text.toList = some o' ∧ o.Respelt o'

theorem distinct (f : DocumentFile) : f.root.Distinct :=
  Toml.distinct_document? f.document

theorem loads_iff_parse : f.Loads s ↔ parse f.text = .ok s := by
  rw [Loads, effect_load, heldBy, f.reads]
  dsimp only
  cases parse f.text <;> simp

theorem loads_iff : f.Loads s ↔ ofDocument f.root = .ok s := by
  rw [loads_iff_parse, parse, f.document]
  exact Sequence.mapError_eq_ok_iff

theorem data_eq {o : Outline} (h : Toml.outline? f.text.toList = some o) : f.data = o.contents := by
  obtain ⟨o', ho', hdata⟩ := Toml.data_document? f.document
  obtain rfl := Option.some.inj (ho'.symm.trans h)
  exact hdata

theorem Respelt.alike (h : f.Respelt g) : Alike f.data g.data := by
  obtain ⟨o, o', ho, ho', hrespelt⟩ := h
  rw [f.data_eq ho, g.data_eq ho']
  exact .of_lookup fun p => hrespelt.same p.name

end DocumentFile

/-- A settings file loads when every section in it is a table, an array or a time, and every setting in
    these is a string or, for the two lists of arguments, an array of strings. Each setting is then what
    the file says for it, else its default. Unknown keys, the order of keys and sections, the spelling
    of a section and surplus elements of an array make no difference, though the report on a refused
    file may show another place. Another value for one setting, if it loads, changes this setting
    only. -/
theorem load_fills_defaults (f : DocumentFile) :
    ((∃ s, f.Loads s) ↔ Readable f.data) ∧
    (∀ s, f.Loads s →
      ∀ x : Setting, x.get s = ((x.mention? f.data).bind x.content?).getD (x.get {})) ∧
    ∀ g : DocumentFile,
      (Immaterial f.data g.data ∨ f.Respelt g → ∀ s, f.Loads s ↔ g.Loads s) ∧
      ∀ (x : Setting) (d : Data), (x.mention? f.data).isSome → g.data = x.replace d f.data →
        ∀ s, f.Loads s → ∀ s', g.Loads s' ↔
          x.content? d = some (x.get s') ∧ ∀ y : Setting, y ≠ x → y.get s' = y.get s := by
  simp only [DocumentFile.loads_iff]
  refine ⟨exists_ofDocument_iff f.distinct, fun s => get_ofDocument f.distinct, fun g => ⟨?_, ?_⟩⟩
  · intro h s
    have halike : Alike f.data g.data := by
      rcases h with h | h
      · exact h.alike
      · exact h.alike
    exact ofDocument_congr f.distinct g.distinct halike
  · intro x d hmention hreplace s h s'
    exact ofDocument_replace_iff f.distinct g.distinct hmention hreplace h

/-- A file with an unknown key, a layout of two elements and a format of the builder; the same file
    with a dotted key; and the file with another format. -/
theorem load_fills_defaults_of_short_layout :
    let session (text : String) : Session :=
      { tree := FileTree.bare.put (Bytes.ofString "settings.toml") []
          (.file (Bytes.ofString text) false) }
    let start := "stray = 3\nlayout = [\"doc\", \"gen\"]\n"
    let loaded : Settings := { layout := ⟨"doc", "gen", "docs/_build"⟩, builder := { format := "xml" } }
    ∃ f g h : DocumentFile,
      f.session = session (start ++ "[vcs]\n[builder]\nformat = \"xml\"\n") ∧
      g.session = session (start ++ "builder.format = \"xml\"\n[vcs]\n") ∧
      h.session = session (start ++ "[vcs]\n[builder]\nformat = \"man\"\n") ∧
      f.Respelt g ∧ h.data = Setting.format.replace (.string "man") f.data ∧ Readable f.data ∧
      f.Loads loaded ∧ g.Loads loaded ∧ h.Loads { loaded with builder.format := "man" } := by
  intro session start loaded
  have hread (text : String) :
      (session text).tree.readText [] (Bytes.ofString "settings.toml") = .ok text :=
    FileTree.readText_of_entry (by rfl)
  have hfile (text : String) (h : (Toml.document? text.toList).isSome = true) :
      ∃ f : DocumentFile, f.session = session text ∧ f.text = text := by
    obtain ⟨root, hroot⟩ := Option.isSome_iff_exists.1 h
    let c : Context := { directory := [], launch := fun _ _ => .error .zeroByte }
    exact ⟨⟨c, session text, Bytes.ofString "settings.toml", text, root, hread text, hroot⟩, rfl, rfl⟩
  obtain ⟨f, hf, hftext⟩ :=
    hfile (start ++ "[vcs]\n[builder]\nformat = \"xml\"\n") (by decide +kernel)
  obtain ⟨g, hg, hgtext⟩ := hfile (start ++ "builder.format = \"xml\"\n[vcs]\n") (by decide +kernel)
  obtain ⟨h, hh, hhtext⟩ :=
    hfile (start ++ "[vcs]\n[builder]\nformat = \"man\"\n") (by decide +kernel)
  let top : List Toml.Given :=
    [⟨[], "stray", .integer 3⟩, ⟨[], "layout", .array [.string "doc", .string "gen"]⟩]
  let body (format : String) : List Toml.Given := [⟨[], "format", .string format⟩]
  let outline (format : String) : Outline :=
    ⟨top, [⟨false, [], "vcs", []⟩, ⟨false, [], "builder", body format⟩]⟩
  have hfoutline : Toml.outline? f.text.toList = some (outline "xml") := by
    rw [hftext]
    decide +kernel
  have hhoutline : Toml.outline? h.text.toList = some (outline "man") := by
    rw [hhtext]
    decide +kernel
  have hrespelt : f.Respelt g := by
    have hspelt := @Outline.Respelt.dotted top (body "xml") [⟨false, [], "vcs", []⟩] [] "builder"
      (by decide +kernel) (by decide +kernel) (by decide +kernel)
    refine ⟨_, _, hfoutline, ?_, hspelt⟩
    rw [hgtext]
    decide +kernel
  have hmention : (Setting.format.mention? f.data).isSome := by
    rw [f.data_eq hfoutline]
    decide +kernel
  have hreplaced : h.data = Setting.format.replace (.string "man") f.data := by
    rw [f.data_eq hfoutline, h.data_eq hhoutline]
    decide +kernel
  have hloads : f.Loads loaded := by
    rw [DocumentFile.loads_iff_parse, hftext]
    decide +kernel
  obtain ⟨hreadable, -, hothers⟩ := load_fills_defaults f
  refine ⟨f, g, h, hf, hg, hh, hrespelt, hreplaced, hreadable.1 ⟨_, hloads⟩, hloads,
    ((hothers g).1 (.inr hrespelt) _).1 hloads, ?_⟩
  refine ((hothers h).2 .format _ hmention hreplaced _ hloads _).2 ⟨rfl, fun y hy => ?_⟩
  cases y <;> first | rfl | exact absurd rfl hy

end DocBuild.Settings
