import DocBuild.Toml.Document

namespace DocBuild.Toml

/-- A value with the dotted key it is assigned to: the segments before the last, then the last. -/
structure Assignment where
  path : List Key
  key : Key
  value : Node

/-- A header, `[path.key]` or `[[path.key]]`, with the assignments below it. -/
structure Section where
  repeated : Bool
  path : List Key
  key : Key
  span : Span
  body : List Assignment

namespace Entries

/-- Changes the table that `path` leads to. Tables that are missing on the way are created as
    `fresh` tables. A header may pass through every table that is not inline, a dotted key only
    through tables that no header defined; both pass through the last row of an array of tables. -/
def alter (fresh : TableKind) (change : TableKind → Entries → Option Entries) :
    List Key → TableKind → Entries → Option Entries
  | [], kind, entries => change kind entries
  | k :: path, _, entries =>
    match entries.get? k.text with
    | none => do
      let inner ← alter fresh change path fresh []
      return entries ++ [(k, ⟨none, .table fresh inner⟩)]
    | some ⟨span, .table kind inner⟩ =>
      if kind = .inline ∨ (fresh = .dotted ∧ kind = .header) then none
      else do
        let inner ← alter fresh change path kind inner
        return entries.replace k.text ⟨span, .table kind inner⟩
    | some ⟨span, .tables rows⟩ =>
      match rows.getLast? with
      | none => none
      | some (rowSpan, row) => do
        let row ← alter fresh change path .header row
        return entries.replace k.text ⟨span, .tables (rows.dropLast ++ [(rowSpan, row)])⟩
    | some _ => none

/-- Adds one value. A key is assigned once, and a dotted key ends in a table that dotted keys
    made. -/
def assign (kind : TableKind) (entries : Entries) (a : Assignment) : Option Entries :=
  alter .dotted (fun kind entries =>
    if (kind = .dotted ↔ a.path = []) ∨ entries.contains a.key.text then none
    else some (entries ++ [(a.key, a.value)])) a.path kind entries

/-- Puts the assignments of a table in one after the other; nothing when one of them clashes. -/
def assignAll (kind : TableKind) (entries : Entries) (body : List Assignment) : Option Entries :=
  body.foldlM (assign kind) entries

end Entries

/-- From the header to the end of the last value below it. -/
def Section.extent (s : Section) : Span :=
  match s.body.getLast?.bind (·.value.span) with
  | some last => ⟨s.span.start, last.stop⟩
  | none => s.span

/-- From the first row to the end of the last one. -/
private def rowsExtent (rows : List (Option Span × Entries)) : Option Span := do
  let first ← (← rows.head?).1
  let last ← (← rows.getLast?).1
  return ⟨first.start, last.stop⟩

/-- Adds a section at the end of the table that its path leads to. A table that was only implied so
    far moves there with what it holds. -/
def Section.place (s : Section) (root : Entries) : Option Entries :=
  Entries.alter .implied (fun _ entries =>
    match s.repeated, entries.get? s.key.text with
    | false, none => do
      let inner ← Entries.assignAll .header [] s.body
      return entries ++ [(s.key, ⟨s.extent, .table .header inner⟩)]
    | false, some ⟨_, .table .implied inner⟩ => do
      let inner ← Entries.assignAll .header inner s.body
      return entries.erase s.key.text ++ [(s.key, ⟨s.extent, .table .header inner⟩)]
    | true, none => do
      let row ← Entries.assignAll .header [] s.body
      return entries ++ [(s.key, ⟨s.extent, .tables [(s.extent, row)]⟩)]
    | true, some ⟨_, .tables rows⟩ => do
      let row ← Entries.assignAll .header [] s.body
      let rows := rows ++ [(some s.extent, row)]
      return entries.replace s.key.text ⟨rowsExtent rows, .tables rows⟩
    | _, _ => none) s.path .header root

/-- The table between braces. -/
def inlineTable? (pairs : List Assignment) : Option Value :=
  (Entries.assignAll .inline [] pairs).map (.table .inline ·)

/-- The root table of a document: what is assigned before the first header, then the sections in
    order. -/
def assemble? (top : List Assignment) (sections : List Section) : Option Entries := do
  let root ← Entries.assignAll .header [] top
  sections.foldlM (fun root s => s.place root) root

end DocBuild.Toml
