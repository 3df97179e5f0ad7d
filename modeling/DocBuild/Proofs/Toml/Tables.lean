import DocBuild.Proofs.Toml.Distinct
import DocBuild.Proofs.Toml.Statements
import Mathlib.Data.List.Nodup

namespace DocBuild.Toml

/-- The sections of a document are found again between its headers. -/
theorem sections_flatMap (ss : List Section) :
    sections (ss.flatMap Section.statements) = ([], ss) := by
  have hbody (body : List Assignment) (said : List Statement) :
      sections (body.map .assign ++ said) = (body ++ (sections said).1, (sections said).2) := by
    induction body with
    | nil => rfl
    | cons a body ih => simp [sections, ih]
  induction ss with
  | nil => rfl
  | cons s ss ih => simp [Section.statements, sections, hbody, ih]

namespace Entries

variable {entries : Entries} {text : String}

theorem contains_eq_false (h : text ∉ entries.map (·.1.text)) : entries.contains text = false := by
  simpa [contains] using h

/-- Different keys can be assigned one after the other. -/
theorem assignAll_eq {body : List Assignment} (hpath : ∀ a ∈ body, a.path = [])
    (hkeys : (entries.map (·.1.text) ++ body.map (·.key.text)).Nodup) :
    assignAll .header entries body = some (entries ++ body.map fun a => (a.key, a.value)) := by
  induction body generalizing entries with
  | nil => simp [assignAll]
  | cons a body ih =>
    have hnew : a.key.text ∉ entries.map (·.1.text) := fun h =>
      (List.nodup_append.1 hkeys).2.2 _ h _ (List.mem_cons_self ..) rfl
    have hassign : assign .header entries a = some (entries ++ [(a.key, a.value)]) := by
      simp [assign, hpath a (List.mem_cons_self ..), alter, contains_eq_false hnew]
    have hnext :
        ((entries ++ [(a.key, a.value)]).map (·.1.text) ++ body.map (·.key.text)).Nodup := by
      simpa using hkeys
    have hrest := ih (fun b hb => hpath b (List.mem_cons_of_mem _ hb)) hnext
    rw [assignAll, List.foldlM_cons, hassign]
    simpa [assignAll] using hrest

end Entries

/-- What a section adds to a document that has no such table yet. -/
def Section.entry (s : Section) : Key × Node :=
  (s.key, ⟨s.extent, .table .header (s.body.map fun a => (a.key, a.value))⟩)

/-- A section with a name of its own and different keys. -/
structure Section.IsPlain (s : Section) : Prop where
  single : s.repeated = false
  path : s.path = []
  paths : ∀ a ∈ s.body, a.path = []
  keys : (s.body.map (·.key.text)).Nodup

theorem Section.place_eq {s : Section} {root : Entries} (hs : s.IsPlain)
    (hnew : s.key.text ∉ root.map (·.1.text)) : s.place root = some (root ++ [s.entry]) := by
  have hbody : Entries.assignAll .header [] s.body = some (s.body.map fun a => (a.key, a.value)) :=
    Entries.assignAll_eq hs.paths (by simpa using hs.keys)
  simp [place, hs.path, Entries.alter, hs.single, Entries.not_mem_keys_iff.1 hnew, hbody, entry]

theorem assemble?_eq {ss : List Section} (hplain : ∀ s ∈ ss, s.IsPlain)
    (hkeys : (ss.map (·.key.text)).Nodup) : assemble? [] ss = some (ss.map Section.entry) := by
  have hplace (root : Entries) (hnodup : (root.map (·.1.text) ++ ss.map (·.key.text)).Nodup) :
      ss.foldlM (fun root s => s.place root) root = some (root ++ ss.map Section.entry) := by
    induction ss generalizing root with
    | nil => simp
    | cons s ss ih =>
      have hnew : s.key.text ∉ root.map (·.1.text) := fun h =>
        (List.nodup_append.1 hnodup).2.2 _ h _ (List.mem_cons_self ..) rfl
      have hrest := ih (fun t ht => hplain t (List.mem_cons_of_mem _ ht))
        (List.nodup_cons.1 hkeys).2 (root ++ [s.entry]) (by simpa [Section.entry] using hnodup)
      rw [List.foldlM_cons, Section.place_eq (hplain s (List.mem_cons_self ..)) hnew]
      simpa using hrest
  simpa [assemble?, Entries.assignAll] using hplace [] (by simpa using hkeys)

/-- The entry of a table that a line is read as. -/
structure Line.IsEntry (l : Line) (e : Key × Node) : Prop where
  key : e.1.text = String.ofList l.key
  value : l.content.IsValue e.2.item

/-- The entry of a document that a table is read as. -/
structure Table.IsEntry (t : Table) (e : Key × Node) : Prop where
  key : e.1.text = String.ofList t.name
  table : ∃ entries, e.2.item = .table .header entries ∧ List.Forall₂ Line.IsEntry t.lines entries

section

variable {l : Line} {lines : List Line} {body : List Assignment} {t : Table} {sec : Section}
  {tables : List Table} {ss : List Section}

theorem paths_of_lines (h : List.Forall₂ Line.IsAssignment lines body) :
    ∀ a ∈ body, a.path = [] := by
  induction h with
  | nil => simp
  | cons ha _ ih => simpa using ⟨ha.path, ih⟩

theorem keys_of_lines (h : List.Forall₂ Line.IsAssignment lines body) :
    body.map (·.key.text) = (lines.map Line.key).map String.ofList := by
  induction h with
  | nil => rfl
  | cons ha _ ih => simp [ha.key, ih]

theorem Table.IsSection.isPlain (h : t.IsSection sec) (ht : t.IsPlain) : sec.IsPlain where
  single := h.single
  path := h.path
  paths := paths_of_lines h.body
  keys := by
    rw [keys_of_lines h.body]
    exact ht.nodup.map fun _ _ h => String.ofList_inj.1 h

theorem Table.IsSection.isEntry (h : t.IsSection sec) : t.IsEntry sec.entry where
  key := h.key
  table := ⟨_, rfl, List.forall₂_map_right_iff.2 (h.body.imp fun _ _ ha => ⟨ha.key, ha.value⟩)⟩

theorem isPlain_of_tables (h : List.Forall₂ Table.IsSection tables ss)
    (htables : ∀ t ∈ tables, t.IsPlain) : ∀ s ∈ ss, s.IsPlain := by
  induction h with
  | nil => simp
  | cons hs _ ih =>
    obtain ⟨ht, hts⟩ := List.forall_mem_cons.1 htables
    exact List.forall_mem_cons.2 ⟨hs.isPlain ht, ih hts⟩

theorem names_of_tables (h : List.Forall₂ Table.IsSection tables ss) :
    ss.map (·.key.text) = (tables.map Table.name).map String.ofList := by
  induction h with
  | nil => rfl
  | cons hs _ ih => simp [hs.key, ih]

end

/-- Tables with different names are read as they were written, also when an empty line ends the
    text. -/
theorem document?_writeTables {t : Table} {ts : List Table} {tail : List Char}
    (htables : ∀ u ∈ t :: ts, u.IsPlain) (hnames : ((t :: ts).map Table.name).Nodup)
    (htail : tail = [] ∨ tail = ['\n']) :
    ∃ root, List.Forall₂ Table.IsEntry (t :: ts) root ∧
      document? (writeTables (t :: ts) ++ tail) = some root := by
  have hend : Says tail [] := by
    rcases htail with rfl | rfl
    · exact .nil
    · exact .newline .nil
  obtain ⟨ss, hss, hsays⟩ := hend.tables htables
  have hassemble := assemble?_eq (isPlain_of_tables hss htables) (by
    rw [names_of_tables hss]
    exact hnames.map fun _ _ h => String.ofList_inj.1 h)
  have hbegins : ∃ more, writeTables (t :: ts) ++ tail = '[' :: more := by
    cases ts <;> exact ⟨_, rfl⟩
  obtain ⟨more, hbegins⟩ := hbegins
  refine ⟨ss.map Section.entry, List.forall₂_map_right_iff.2 (hss.imp fun _ _ h => h.isEntry), ?_⟩
  have hstatements := hsays _ (Nat.le_refl _)
  have hdocument : document? ('[' :: more) = (statements ('[' :: more).length ('[' :: more)).bind
      fun said => assemble? (sections said).1 (sections said).2 := rfl
  rw [hbegins] at hstatements ⊢
  rw [hdocument, hstatements, Option.bind_some, sections_flatMap, hassemble]

end DocBuild.Toml
