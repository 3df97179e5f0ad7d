import DocBuild.Proofs.Toml.Assembly
import DocBuild.Proofs.Toml.Data
import DocBuild.Toml.Reader

namespace DocBuild.Toml

/-- A value with the dotted key it is given under: the segments before the last, then the last. -/
structure Given where
  path : List String
  key : String
  value : Data
  deriving DecidableEq

/-- A header, with what is given below it. -/
structure Headed where
  repeated : Bool
  path : List String
  key : String
  body : List Given
  deriving DecidableEq

/-- What a document says line by line. -/
structure Outline where
  top : List Given
  sections : List Headed
  deriving DecidableEq

def Assignment.given (a : Assignment) : Given :=
  ⟨a.path.map Key.text, a.key.text, a.value.item.data⟩

def Section.headed (s : Section) : Headed :=
  ⟨s.repeated, s.path.map Key.text, s.key.text, s.body.map Assignment.given⟩

namespace Mapping

/-- Changes the mapping that a path leads to. Mappings that are missing on the way are created, and
    an array leads to its last element. -/
def alter (change : Mapping → Mapping) : List String → Mapping → Mapping
  | [], m => change m
  | k :: path, m =>
    match m.lookup k with
    | none => m ++ [(k, .table (alter change path []))]
    | some (.table inner) => m.update k fun _ => .table (alter change path inner)
    | some (.array rows) =>
      match rows.getLast? with
      | some (.table row) =>
        m.update k fun _ => .array (rows.dropLast ++ [.table (alter change path row)])
      | _ => m
    | some _ => m

def give (m : Mapping) (g : Given) : Mapping :=
  m.alter (· ++ [(g.key, g.value)]) g.path

def giveAll (m : Mapping) (gs : List Given) : Mapping :=
  gs.foldl give m

/-- A table with a header of its own stands where the header stands, also when it was only implied
    before; a repeated header adds an element to its array. -/
def place (m : Mapping) (s : Headed) : Mapping :=
  m.alter (fun m =>
    match s.repeated, m.lookup s.key with
    | false, some (.table old) =>
      m.without s.key ++ [(s.key, .table (giveAll old s.body))]
    | false, _ => m ++ [(s.key, .table (giveAll [] s.body))]
    | true, some (.array rows) =>
      m.update s.key fun _ => .array (rows ++ [.table (giveAll [] s.body)])
    | true, _ => m ++ [(s.key, .array [.table (giveAll [] s.body)])]) s.path

end Mapping

/-- What the lines of a document say together. -/
def Outline.contents (o : Outline) : Mapping :=
  o.sections.foldl Mapping.place (Mapping.giveAll [] o.top)

namespace Entries

variable {entries entries' : Entries} {kind : TableKind}

theorem data_alter {fresh : TableKind} {change : TableKind → Entries → Option Entries}
    {change' : Mapping → Mapping} {path : List Key}
    (hchange : ∀ kind entries entries', change kind entries = some entries' →
      entries'.data = change' entries.data)
    (h : Entries.alter fresh change path kind entries = some entries') :
    entries'.data = Mapping.alter change' (path.map Key.text) entries.data := by
  induction path generalizing kind entries entries' with
  | nil => exact hchange _ _ _ h
  | cons k path ih =>
    rw [List.map_cons, Mapping.alter, lookup_data]
    cases enters_of_alter h with
    | missing hget hinner => simp [hget, ih hinner]
    | table hget hinner => simp [hget, ih hinner]
    | row hget hlast hinner => simp [hget, hlast, ih hinner]

theorem data_assign {a : Assignment} (h : Entries.assign kind entries a = some entries') :
    entries'.data = entries.data.give a.given := by
  obtain ⟨change, hchange, halter⟩ := exists_assign_eq a
  rw [halter] at h
  refine data_alter (fun kind entries entries' hdone => ?_) h
  obtain ⟨-, rfl⟩ := hchange _ _ _ hdone
  exact data_concat

theorem data_assignAll {body : List Assignment}
    (h : Entries.assignAll kind entries body = some entries') :
    entries'.data = entries.data.giveAll (body.map Assignment.given) := by
  induction body generalizing entries with
  | nil =>
    obtain rfl := Option.some.inj h
    rfl
  | cons a body ih =>
    obtain ⟨next, hfirst, hrest⟩ := Option.bind_eq_some_iff.1 h
    rw [ih hrest, data_assign hfirst]
    rfl

theorem data_place {s : Section} (h : s.place entries = some entries') :
    entries'.data = entries.data.place s.headed := by
  obtain ⟨change, hchange, halter⟩ := s.exists_place_eq
  rw [halter] at h
  refine data_alter (fun kind entries entries' hdone => ?_) h
  dsimp only [Section.headed]
  rw [lookup_data]
  cases hchange _ _ _ hdone with
  | table hkind hget hinner => simp [hkind, hget, data_assignAll hinner]
  | implied hkind hget hinner => simp [hkind, hget, data_assignAll hinner]
  | first hkind hget hrow => simp [hkind, hget, data_assignAll hrow]
  | next hkind hget hrow => simp [hkind, hget, data_assignAll hrow]

theorem data_placeAll {ss : List Section}
    (h : ss.foldlM (fun root s => s.place root) entries = some entries') :
    entries'.data = (ss.map Section.headed).foldl Mapping.place entries.data := by
  induction ss generalizing entries with
  | nil =>
    obtain rfl := Option.some.inj h
    rfl
  | cons s ss ih =>
    obtain ⟨next, hnext, hrest⟩ := Option.bind_eq_some_iff.1 h
    rw [ih hrest, data_place hnext]
    rfl

end Entries

/-- What a text says line by line, if it can be read. -/
def outline? (text : List Char) : Option Outline := do
  let s := match text with
    | '\ufeff' :: s => s
    | s => s
  let (top, sections) := sections (← statements s.length s)
  return ⟨top.map Assignment.given, sections.map Section.headed⟩

theorem data_assemble? {top : List Assignment} {ss : List Section} {root : Entries}
    (h : assemble? top ss = some root) :
    root.data = Outline.contents ⟨top.map Assignment.given, ss.map Section.headed⟩ := by
  obtain ⟨first, hfirst, h⟩ := Option.bind_eq_some_iff.1 h
  rw [Outline.contents, Entries.data_placeAll h, Entries.data_assignAll hfirst, Entries.data_nil]

/-- A document says what its lines say together. -/
theorem data_document? {text : List Char} {root : Entries} (h : document? text = some root) :
    ∃ o, outline? text = some o ∧ root.data = o.contents := by
  obtain ⟨said, hsaid, h⟩ := Option.bind_eq_some_iff.1 h
  exact ⟨_, Option.bind_eq_some_iff.2 ⟨said, hsaid, rfl⟩, data_assemble? h⟩

end DocBuild.Toml
