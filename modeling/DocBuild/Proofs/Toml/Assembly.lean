import DocBuild.Toml.Assembly

namespace DocBuild.Toml

namespace Entries

variable {entries entries' : Entries} {kind fresh : TableKind}

/-- How a table changes when the table behind one of its keys does, as `inside` says: a missing table is
    created, and an array of tables stands for its last row. -/
inductive Enters (fresh : TableKind) (inside : TableKind → Entries → Option Entries) (k : Key)
    (entries : Entries) : Entries → Prop where
  | missing {inner : Entries} (hget : entries.get? k.text = none) (hinner : inside fresh [] = some inner) :
    Enters fresh inside k entries (entries ++ [(k, ⟨none, .table fresh inner⟩)])
  | table {span : Option Span} {kind : TableKind} {old inner : Entries}
    (hget : entries.get? k.text = some ⟨span, .table kind old⟩)
    (hinner : inside kind old = some inner) :
    Enters fresh inside k entries (entries.replace k.text ⟨span, .table kind inner⟩)
  | row {span rowSpan : Option Span} {rows : List (Option Span × Entries)} {old inner : Entries}
    (hget : entries.get? k.text = some ⟨span, .tables rows⟩)
    (hlast : rows.getLast? = some (rowSpan, old)) (hinner : inside .header old = some inner) :
    Enters fresh inside k entries
      (entries.replace k.text ⟨span, .tables (rows.dropLast ++ [(rowSpan, inner)])⟩)

theorem enters_of_alter {change : TableKind → Entries → Option Entries} {k : Key} {path : List Key}
    (h : alter fresh change (k :: path) kind entries = some entries') :
    Enters fresh (alter fresh change path) k entries entries' := by
  unfold alter at h
  split at h
  · next hnone =>
    obtain ⟨inner, hinner, hdone⟩ := Option.bind_eq_some_iff.1 h
    obtain rfl := Option.some.inj hdone
    exact .missing hnone hinner
  · next span kind old hget =>
    split at h
    · cases h
    · obtain ⟨inner, hinner, hdone⟩ := Option.bind_eq_some_iff.1 h
      obtain rfl := Option.some.inj hdone
      exact .table hget hinner
  · next span rows hget =>
    split at h
    · cases h
    · next rowSpan old hlast =>
      obtain ⟨inner, hinner, hdone⟩ := Option.bind_eq_some_iff.1 h
      obtain rfl := Option.some.inj hdone
      exact .row hget hlast hinner
  · cases h

/-- An assignment adds its key to the table that its path leads to, if it is new there. -/
theorem exists_assign_eq (a : Assignment) : ∃ change : TableKind → Entries → Option Entries,
    (∀ kind entries entries', change kind entries = some entries' →
      entries.get? a.key.text = none ∧ entries' = entries ++ [(a.key, a.value)]) ∧
    ∀ kind entries, assign kind entries a = alter .dotted change a.path kind entries := by
  refine ⟨_, fun kind entries entries' h => ?_, fun _ _ => rfl⟩
  split at h
  · cases h
  · next hfree =>
    have hnew : entries.contains a.key.text = false := by simpa using (not_or.1 hfree).2
    exact ⟨by simpa [contains, get?] using hnew, (Option.some.inj h).symm⟩

end Entries

namespace Section

variable {s : Section} {entries entries' : Entries}

/-- What a header with its assignments does to the table that its path leads to. A table that was only
    implied moves to the end. -/
inductive Adds (s : Section) (entries : Entries) : Entries → Prop where
  | table {inner : Entries} (hkind : s.repeated = false) (hget : entries.get? s.key.text = none)
    (hinner : Entries.assignAll .header [] s.body = some inner) :
    Adds s entries (entries ++ [(s.key, ⟨s.extent, .table .header inner⟩)])
  | implied {span : Option Span} {old inner : Entries} (hkind : s.repeated = false)
    (hget : entries.get? s.key.text = some ⟨span, .table .implied old⟩)
    (hinner : Entries.assignAll .header old s.body = some inner) :
    Adds s entries (entries.erase s.key.text ++ [(s.key, ⟨s.extent, .table .header inner⟩)])
  | first {row : Entries} (hkind : s.repeated = true) (hget : entries.get? s.key.text = none)
    (hrow : Entries.assignAll .header [] s.body = some row) :
    Adds s entries (entries ++ [(s.key, ⟨s.extent, .tables [(s.extent, row)]⟩)])
  | next {span extent : Option Span} {rows : List (Option Span × Entries)} {row : Entries}
    (hkind : s.repeated = true) (hget : entries.get? s.key.text = some ⟨span, .tables rows⟩)
    (hrow : Entries.assignAll .header [] s.body = some row) :
    Adds s entries
      (entries.replace s.key.text ⟨extent, .tables (rows ++ [(some s.extent, row)])⟩)

/-- A section changes the table that its path leads to, in one of these ways. -/
theorem exists_place_eq (s : Section) : ∃ change : TableKind → Entries → Option Entries,
    (∀ kind entries entries', change kind entries = some entries' → s.Adds entries entries') ∧
      ∀ root, s.place root = Entries.alter .implied change s.path .header root := by
  refine ⟨_, fun kind entries entries' h => ?_, fun _ => rfl⟩
  split at h
  · next hkind hget =>
    obtain ⟨inner, hinner, hdone⟩ := Option.bind_eq_some_iff.1 h
    obtain rfl := Option.some.inj hdone
    exact .table hkind hget hinner
  · next hkind hget =>
    obtain ⟨inner, hinner, hdone⟩ := Option.bind_eq_some_iff.1 h
    obtain rfl := Option.some.inj hdone
    exact .implied hkind hget hinner
  · next hkind hget =>
    obtain ⟨row, hrow, hdone⟩ := Option.bind_eq_some_iff.1 h
    obtain rfl := Option.some.inj hdone
    exact .first hkind hget hrow
  · next hkind hget =>
    obtain ⟨row, hrow, hdone⟩ := Option.bind_eq_some_iff.1 h
    obtain rfl := Option.some.inj hdone
    exact .next hkind hget hrow
  · cases h

end Section
end DocBuild.Toml
