import DocBuild.Settings
import DocBuild.Toml.Diagnostic
import DocBuild.Toml.Reader

namespace DocBuild

open Toml (Node Entries Mismatch)

/-- How one field of a section takes its value. -/
structure Field (σ : Type) where
  name : String
  store : Node → σ → Except Mismatch σ

namespace Field

private def mismatch (node : Node) (expected : String) : Mismatch :=
  ⟨node.span, node.item.describe, expected⟩

def text (node : Node) : Except Mismatch String :=
  match node.item with
  | .string s => .ok s
  | _ => .error (mismatch node "a string")

def texts (node : Node) : Except Mismatch (List String) :=
  match node.item with
  | .array items => items.mapM text
  | .tables rows => rows.mapM fun row => text ⟨row.1, .table .header row.2⟩
  | _ => .error (mismatch node "a sequence")

/-- An entry without a place of its own is reported at its key. -/
def keyed (key : Toml.Key) (node : Node) : Node :=
  ⟨node.span <|> some key.span, node.item⟩

/-- Stores the entries of a table in their order. -/
def storeEntries {σ : Type} (fields : List (Field σ)) (start : σ) (entries : Entries) :
    Except Mismatch σ :=
  entries.foldlM (fun s (key, node) =>
    match fields.find? (·.name = key.text) with
    | some f => f.store (keyed key node) s
    | none => .ok s) start

/-- Stores elements in the order of the fields; elements beyond the last field are passed over. -/
def storeItems {σ : Type} (fields : List (Field σ)) (start : σ) (items : List Node) :
    Except Mismatch σ :=
  (fields.zip items).foldlM (fun s (f, node) => f.store node s) start

/-- A section is a table, read by key, or an array, read by position. A date or time counts as a
    table without known keys. -/
def storeSection {σ : Type} (fields : List (Field σ)) (start : σ) (expected : String)
    (node : Node) : Except Mismatch σ :=
  match node.item with
  | .table _ entries => storeEntries fields start entries
  | .array items => storeItems fields start items
  | .tables rows =>
    storeItems fields start (rows.map fun row => ⟨row.1, .table .header row.2⟩)
  | .dateTime => .ok start
  | _ => .error (mismatch node expected)

end Field

def LayoutSection.fields : List (Field LayoutSection) := [
  ⟨"config_dir", fun v s => return { s with configDir := ← Field.text v }⟩,
  ⟨"generated_dir", fun v s => return { s with generatedDir := ← Field.text v }⟩,
  ⟨"output_dir", fun v s => return { s with outputDir := ← Field.text v }⟩]

def BuilderSection.fields : List (Field BuilderSection) := [
  ⟨"program", fun v s => return { s with program := ← Field.text v }⟩,
  ⟨"prefix_args", fun v s => return { s with prefixArgs := ← Field.texts v }⟩,
  ⟨"format", fun v s => return { s with format := ← Field.text v }⟩,
  ⟨"extra_args", fun v s => return { s with extraArgs := ← Field.texts v }⟩]

def RepositorySection.fields : List (Field RepositorySection) := [
  ⟨"program", fun v s => return { s with program := ← Field.text v }⟩]

namespace Settings

def fields : List (Field Settings) := [
  ⟨"layout", fun v s => return { s with
    layout := ← Field.storeSection LayoutSection.fields {} "struct LayoutConfig" v }⟩,
  ⟨"builder", fun v s => return { s with
    builder := ← Field.storeSection BuilderSection.fields {} "struct BuilderConfig" v }⟩,
  ⟨"vcs", fun v s => return { s with
    vcs := ← Field.storeSection RepositorySection.fields {} "struct VcsConfig" v }⟩]

def ofDocument (root : Entries) : Except Mismatch Settings :=
  Field.storeEntries fields {} root

/-- Why a text describes no settings. -/
inductive ParseError where
  /-- The text is no TOML document. -/
  | malformed
  /-- A value is of the wrong kind. -/
  | mismatch (m : Mismatch)
  deriving DecidableEq

def parse (text : String) : Except ParseError Settings :=
  match Toml.document? text.toList with
  | none => .error .malformed
  | some root => (ofDocument root).mapError .mismatch

def ParseError.report (text : String) : ParseError → String
  | malformed => "TOML parse error"
  | mismatch m => m.report text.toList

end Settings
end DocBuild
