import DocBuild.Proofs.Toml.Tables
import DocBuild.Settings.Decoding
import DocBuild.Settings.Written

namespace DocBuild.Settings

open Toml

def layoutLines (l : LayoutSection) : List Line := [
  ⟨"config_dir".toList, .text l.configDir.toList⟩,
  ⟨"generated_dir".toList, .text l.generatedDir.toList⟩,
  ⟨"output_dir".toList, .text l.outputDir.toList⟩]

def builderLines (b : BuilderSection) : List Line := [
  ⟨"program".toList, .text b.program.toList⟩,
  ⟨"prefix_args".toList, .texts (b.prefixArgs.map String.toList)⟩,
  ⟨"format".toList, .text b.format.toList⟩,
  ⟨"extra_args".toList, .texts (b.extraArgs.map String.toList)⟩]

def repositoryLines (r : RepositorySection) : List Line := [
  ⟨"program".toList, .text r.program.toList⟩]

/-- Settings as tables. -/
def tables (s : Settings) : List Table := [
  ⟨"layout".toList, layoutLines s.layout⟩,
  ⟨"builder".toList, builderLines s.builder⟩,
  ⟨"vcs".toList, repositoryLines s.vcs⟩]

theorem written_eq (s : Settings) : s.written = writeTables s.tables := by
  let line (key : String) (value : List Char) := key.toList ++ " = ".toList ++ value ++ ['\n']
  have hwritten : s.written =
      "[layout]\n".toList
        ++ line "config_dir" (writeString s.layout.configDir.toList)
        ++ line "generated_dir" (writeString s.layout.generatedDir.toList)
        ++ line "output_dir" (writeString s.layout.outputDir.toList)
        ++ "\n[builder]\n".toList
        ++ line "program" (writeString s.builder.program.toList)
        ++ line "prefix_args" (writeStrings (s.builder.prefixArgs.map String.toList))
        ++ line "format" (writeString s.builder.format.toList)
        ++ line "extra_args" (writeStrings (s.builder.extraArgs.map String.toList))
        ++ "\n[vcs]\n".toList
        ++ line "program" (writeString s.vcs.program.toList) := rfl
  rw [hwritten]
  simp [line, tables, layoutLines, builderLines, repositoryLines, writeTables, Table.written,
    Line.written, Content.written]

instance (name : List Char) : Decidable (IsBareKey name) :=
  decidable_of_iff (name ≠ [] ∧ name.all isBareKeyChar = true)
    ⟨fun h => ⟨h.1, List.all_eq_true.1 h.2⟩, fun h => ⟨h.ne_nil, List.all_eq_true.2 h.bare⟩⟩

theorem isPlain_tables (s : Settings) : ∀ t ∈ s.tables, t.IsPlain := by
  have hnames : ∀ name ∈ s.tables.map Table.name, IsBareKey name := by
    simp only [tables, layoutLines, builderLines, repositoryLines, List.map_cons, List.map_nil]
    decide
  have hkeys : ∀ keys ∈ s.tables.map fun t => t.lines.map Line.key,
      (∀ key ∈ keys, IsBareKey key) ∧ keys.Nodup := by
    simp only [tables, layoutLines, builderLines, repositoryLines, List.map_cons, List.map_nil]
    decide
  simp only [List.forall_mem_map] at hnames hkeys
  exact fun t ht => ⟨hnames t ht, (hkeys t ht).1, (hkeys t ht).2⟩

theorem names_tables (s : Settings) : (s.tables.map Table.name).Nodup := by
  simp only [tables, layoutLines, builderLines, repositoryLines, List.map_cons, List.map_nil]
  decide

section

variable {σ : Type} {fields : List (Field σ)} {start : σ} {e : Key × Node} {entries : Entries}
  {name : String}

theorem storeEntries_cons {f : Field σ} {next : σ}
    (hfield : fields.find? (·.name = e.1.text) = some f)
    (hstore : f.store (Field.keyed e.1 e.2) start = .ok next) :
    Field.storeEntries fields start (e :: entries) = Field.storeEntries fields next entries := by
  simp only [Field.storeEntries, List.foldlM_cons, hfield, hstore]
  rfl

/-- A field that holds a string takes the one that was written. -/
theorem storeEntries_text {text : String} {set : String → σ → σ}
    (h : Line.IsEntry ⟨name.toList, .text text.toList⟩ e)
    (hfield : fields.find? (·.name = name) =
      some ⟨name, fun v s => return set (← Field.text v) s⟩) :
    Field.storeEntries fields start (e :: entries) =
      Field.storeEntries fields (set text start) entries := by
  have hitem : e.2.item = .string text := by
    rw [h.value, textOf, String.ofList_toList]
  have htext : Field.text (Field.keyed e.1 e.2) = .ok text := by
    simp [Field.text, Field.keyed, hitem]
  refine storeEntries_cons (by rw [h.key, String.ofList_toList, hfield]) ?_
  simp only [htext]
  rfl

theorem mapM_text {texts : List String} {items : List Node}
    (h : AreTexts (texts.map String.toList) items) : items.mapM Field.text = .ok texts := by
  rw [AreTexts, List.map_map] at h
  induction items generalizing texts with
  | nil =>
    cases texts with
    | nil => rfl
    | cons => cases h
  | cons node items ih =>
    cases texts with
    | nil => cases h
    | cons text texts =>
      obtain ⟨hnode, hitems⟩ := List.cons.inj h
      have htext : Field.text node = .ok text := by simp [Field.text, hnode, textOf]
      rw [List.mapM_cons, htext, ih hitems]
      rfl

/-- A field that holds a list of strings takes the list that was written. -/
theorem storeEntries_texts {texts : List String} {set : List String → σ → σ}
    (h : Line.IsEntry ⟨name.toList, .texts (texts.map String.toList)⟩ e)
    (hfield : fields.find? (·.name = name) =
      some ⟨name, fun v s => return set (← Field.texts v) s⟩) :
    Field.storeEntries fields start (e :: entries) =
      Field.storeEntries fields (set texts start) entries := by
  obtain ⟨items, hitems, hitem⟩ := h.value
  have htexts : Field.texts (Field.keyed e.1 e.2) = .ok texts := by
    simp [Field.texts, Field.keyed, hitem, mapM_text hitems]
  refine storeEntries_cons (by rw [h.key, String.ofList_toList, hfield]) ?_
  simp only [htexts]
  rfl

end

theorem storeEntries_layout {l : LayoutSection} {entries : Entries}
    (h : List.Forall₂ Line.IsEntry (layoutLines l) entries) :
    Field.storeEntries LayoutSection.fields {} entries = .ok l := by
  rcases h with _ | ⟨hconfig, _ | ⟨hgenerated, _ | ⟨houtput, _ | _⟩⟩⟩
  rw [storeEntries_text hconfig rfl, storeEntries_text hgenerated rfl,
    storeEntries_text houtput rfl]
  rfl

theorem storeEntries_builder {b : BuilderSection} {entries : Entries}
    (h : List.Forall₂ Line.IsEntry (builderLines b) entries) :
    Field.storeEntries BuilderSection.fields {} entries = .ok b := by
  rcases h with _ | ⟨hprogram, _ | ⟨hbefore, _ | ⟨hformat, _ | ⟨hextra, _ | _⟩⟩⟩⟩
  rw [storeEntries_text hprogram rfl, storeEntries_texts hbefore rfl, storeEntries_text hformat rfl,
    storeEntries_texts hextra rfl]
  rfl

theorem storeEntries_repository {r : RepositorySection} {entries : Entries}
    (h : List.Forall₂ Line.IsEntry (repositoryLines r) entries) :
    Field.storeEntries RepositorySection.fields {} entries = .ok r := by
  rcases h with _ | ⟨hprogram, _ | _⟩
  rw [storeEntries_text hprogram rfl]
  rfl

/-- A section takes what its table holds. -/
theorem storeEntries_table {σ τ : Type} {fields : List (Field σ)} {sections : List (Field τ)}
    {lines : List Line} {start next : σ} {all : τ} {set : σ → τ → τ} {name expected : String}
    {e : Key × Node} {entries : Entries} (h : Table.IsEntry ⟨name.toList, lines⟩ e)
    (hlines : ∀ entries, List.Forall₂ Line.IsEntry lines entries →
      Field.storeEntries fields start entries = .ok next)
    (hsection : sections.find? (·.name = name) =
      some ⟨name, fun v s => return set (← Field.storeSection fields start expected v) s⟩) :
    Field.storeEntries sections all (e :: entries) =
      Field.storeEntries sections (set next all) entries := by
  obtain ⟨inner, htable, hinner⟩ := h.table
  have hnext : Field.storeSection fields start expected (Field.keyed e.1 e.2) = .ok next := by
    simp only [Field.storeSection, Field.keyed, htable, hlines inner hinner]
  refine storeEntries_cons (by rw [h.key, String.ofList_toList, hsection]) ?_
  simp only [hnext]
  rfl

theorem ofDocument_tables {s : Settings} {root : Entries}
    (h : List.Forall₂ Table.IsEntry s.tables root) : ofDocument root = .ok s := by
  rcases h with _ | ⟨hlayout, _ | ⟨hbuilder, _ | ⟨hvcs, _ | _⟩⟩⟩
  rw [ofDocument, storeEntries_table hlayout (fun _ => storeEntries_layout) rfl,
    storeEntries_table hbuilder (fun _ => storeEntries_builder) rfl,
    storeEntries_table hvcs (fun _ => storeEntries_repository) rfl]
  rfl

/-- Settings are read as they were written, whether or not an empty line ends the text. -/
theorem parse_render_append (s : Settings) {tail : String} (htail : tail = "" ∨ tail = "\n") :
    parse (s.render ++ tail) = .ok s := by
  have hlines : tail.toList = [] ∨ tail.toList = ['\n'] := by
    rcases htail with rfl | rfl
    · exact .inl rfl
    · exact .inr rfl
  obtain ⟨root, hroot, hdocument⟩ :=
    document?_writeTables (isPlain_tables s) (names_tables s) hlines
  have htext : (s.render ++ tail).toList = writeTables s.tables ++ tail.toList := by
    rw [render, String.toList_append, String.toList_ofList, written_eq]
  have hdocument : document? (s.render ++ tail).toList = some root := htext ▸ hdocument
  simp only [parse, hdocument, ofDocument_tables hroot]
  rfl

end DocBuild.Settings
