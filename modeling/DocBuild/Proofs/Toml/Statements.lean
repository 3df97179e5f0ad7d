import DocBuild.Proofs.Toml.Value
import Mathlib.Data.List.Forall2

namespace DocBuild.Toml

variable {c : Char} {name s rest : List Char} {said : List Statement}

/-- A key that needs no quotation marks. -/
structure IsBareKey (name : List Char) : Prop where
  ne_nil : name ≠ []
  bare : ∀ c ∈ name, isBareKeyChar c = true

theorem isBareKeyChar_ne (h : isBareKeyChar c = true) :
    c ≠ '"' ∧ c ≠ '\'' ∧ c ≠ ' ' ∧ c ≠ '\t' ∧ c ≠ '#' ∧ c ≠ '\n' ∧ c ≠ '\r' ∧ c ≠ '[' := by
  refine ⟨?_, ?_, ?_, ?_, ?_, ?_, ?_, ?_⟩ <;> rintro rfl <;> revert h <;> decide

theorem IsBareKey.begins (h : IsBareKey name) :
    ∃ first more, name = first :: more ∧ isBareKeyChar first = true := by
  obtain ⟨first, more, rfl⟩ := List.exists_cons_of_ne_nil h.ne_nil
  exact ⟨first, more, rfl, h.bare first (List.mem_cons_self ..)⟩

theorem IsBareKey.skipBlank (h : IsBareKey name) : skipBlank (name ++ s) = name ++ s := by
  obtain ⟨first, more, rfl, hfirst⟩ := h.begins
  obtain ⟨-, -, hspace, htab, -⟩ := isBareKeyChar_ne hfirst
  simp [Toml.skipBlank, isBlank, hspace, htab]

theorem keySegment_bare (hname : IsBareKey name) (hend : isBareKeyChar c = false) :
    keySegment (name ++ c :: rest) = some (name, c :: rest) := by
  have htake : (name ++ c :: rest).takeWhile isBareKeyChar = name := by
    rw [List.takeWhile_append_of_pos hname.bare, List.takeWhile_cons_of_neg (by simp [hend]),
      List.append_nil]
  have hdrop : (name ++ c :: rest).dropWhile isBareKeyChar = c :: rest := by
    rw [List.dropWhile_append_of_pos hname.bare, List.dropWhile_cons_of_neg (by simp [hend])]
  obtain ⟨first, more, rfl, hfirst⟩ := hname.begins
  obtain ⟨hmark, hmark', -⟩ := isBareKeyChar_ne hfirst
  rw [List.cons_append] at htake hdrop ⊢
  rw [keySegment, htake, hdrop]
  · exact fun s h => hmark (List.cons.inj h).1
  · exact fun s h => hmark' (List.cons.inj h).1

theorem keyPath_bare (hname : IsBareKey name) (hend : isBareKeyChar c = false)
    (hdot : ∀ r, skipBlank (c :: rest) ≠ '.' :: r) :
    ∃ span, keyPath (name ++ c :: rest) =
      some (([], ⟨String.ofList name, span⟩), skipBlank (c :: rest)) := by
  have hkey : ∃ span, dottedKey limit (name ++ c :: rest) =
      some ([⟨String.ofList name, span⟩], skipBlank (c :: rest)) := by
    rw [show limit = 78 + 1 from rfl, dottedKey]
    simp only [hname.skipBlank, keySegment_bare hname hend, Option.bind_eq_bind, Option.bind_some]
    exact ⟨_, rfl⟩
  obtain ⟨span, hkey⟩ := hkey
  exact ⟨span, by rw [keyPath, hkey]; rfl⟩

/-- A text whose length is fuel enough to read these statements in it. -/
def Says (text : List Char) (said : List Statement) : Prop :=
  ∀ fuel, text.length ≤ fuel → statements fuel text = some said

theorem Says.nil : Says [] [] := by
  intro fuel _
  cases fuel <;> rfl

theorem Says.newline (h : Says rest said) : Says ('\n' :: rest) said := by
  intro fuel hfuel
  obtain ⟨fuel, rfl⟩ := Nat.exists_eq_add_of_lt (Nat.lt_of_lt_of_le (Nat.succ_pos _) hfuel)
  have hend : endOfLine? ('\n' :: rest) = some rest := rfl
  have hskip : skipBlank ('\n' :: rest) = '\n' :: rest := rfl
  simp only [List.length_cons, Nat.zero_add, Nat.add_le_add_iff_right] at hfuel
  simp [statements, hend, hskip, h fuel hfuel]

/-- A line that is neither blank nor a comment says what is read in it. -/
theorem Says.line {statement : Statement} (h : Says rest said) (hskip : skipBlank (c :: s) = c :: s)
    (hblank : c ≠ '#' ∧ c ≠ '\n' ∧ c ≠ '\r')
    (hread : (if c = '[' then header (c :: s)
      else (assignment (value limit) (c :: s)).map fun (a, rest) => (.assign a, rest)) =
        some (statement, '\n' :: rest))
    (hshort : rest.length ≤ s.length) : Says (c :: s) (statement :: said) := by
  intro fuel hfuel
  obtain ⟨fuel, rfl⟩ := Nat.exists_eq_add_of_lt (Nat.lt_of_lt_of_le (Nat.succ_pos _) hfuel)
  have hrest : statements fuel rest = some said := h fuel (by simp at hfuel; omega)
  have hend : endOfLine? ('\n' :: rest) = some rest := rfl
  obtain ⟨hcomment, hline, hreturn⟩ := hblank
  split at hread
  · next hopen =>
    subst hopen
    simp [statements, hskip, hread, hend, hrest]
  · next hopen =>
    obtain ⟨⟨a, r⟩, hassign, hpair⟩ := Option.map_eq_some_iff.1 hread
    obtain ⟨rfl, rfl⟩ := Prod.mk.inj hpair
    simp [statements, hskip, hcomment, hline, hreturn, hopen, hassign, hend, hrest]

/-- The header of a table. -/
theorem Says.header (h : Says rest said) (hname : IsBareKey name) :
    ∃ key span, Says ('[' :: name ++ ']' :: '\n' :: rest)
      (.header false [] ⟨String.ofList name, key⟩ span :: said) := by
  have hundotted (r : List Char) : skipBlank (']' :: '\n' :: rest) ≠ '.' :: r :=
    fun h => absurd (List.cons.inj h).1 (by decide)
  obtain ⟨key, hkey⟩ := keyPath_bare hname (by decide) hundotted
  have hheader : ∃ span, Toml.header ('[' :: (name ++ ']' :: '\n' :: rest)) =
      some (.header false [] ⟨String.ofList name, key⟩ span, '\n' :: rest) := by
    have hclose : skipBlank (']' :: '\n' :: rest) = ']' :: '\n' :: rest := rfl
    obtain ⟨first, more, rfl, hfirst⟩ := hname.begins
    obtain ⟨-, -, -, -, -, -, -, hopen⟩ := isBareKeyChar_ne hfirst
    rw [List.cons_append] at hkey ⊢
    rw [Toml.header]
    · simp only [hkey, hclose, Option.bind_eq_bind, Option.bind_some]
      exact ⟨_, rfl⟩
    · exact fun r h => hopen (List.cons.inj h).1
  obtain ⟨span, hheader⟩ := hheader
  exact ⟨key, span, h.line rfl (by decide) hheader (by simp; omega)⟩

/-- What a field of a table holds. -/
inductive Content where
  | text (s : List Char)
  | texts (ss : List (List Char))

namespace Content

def written : Content → List Char
  | text s => writeString s
  | texts ss => writeStrings ss

/-- The value that a content is read as; where its parts stand is left open. -/
def IsValue : Content → Value → Prop
  | text s, v => v = textOf s
  | texts ss, v => ∃ items, AreTexts ss items ∧ v = .array items

theorem skipBlank_written (content : Content) :
    skipBlank (content.written ++ s) = content.written ++ s := by
  cases content with
  | text t =>
    obtain ⟨mark, more, hbegins, hmark⟩ := writeString_begins t
    rw [written, hbegins, List.cons_append]
    rcases hmark with rfl | rfl <;> rfl
  | texts ss =>
    match ss with
    | [] | [_] | _ :: _ :: _ => rfl

theorem value_written (content : Content) (rest : List Char) :
    ∃ span v, content.IsValue v ∧
      value limit (content.written ++ '\n' :: rest) = some (⟨span, v⟩, '\n' :: rest) := by
  cases content with
  | text s =>
    have hline : Unquoted ('\n' :: rest) := by simp [Unquoted]
    obtain ⟨span, hvalue⟩ := value_writeString limit s hline
    exact ⟨span, _, rfl, hvalue⟩
  | texts ss =>
    obtain ⟨span, items, htexts, hvalue⟩ := value_writeStrings 78 ss ('\n' :: rest)
    exact ⟨span, _, ⟨items, htexts, rfl⟩, hvalue⟩

end Content

/-- A field as it is written. -/
structure Line where
  key : List Char
  content : Content

def Line.written (l : Line) : List Char :=
  l.key ++ ' ' :: '=' :: ' ' :: l.content.written ++ ['\n']

/-- The assignment that a line is read as. -/
structure Line.IsAssignment (l : Line) (a : Assignment) : Prop where
  path : a.path = []
  key : a.key.text = String.ofList l.key
  value : l.content.IsValue a.value.item

theorem Says.assign {l : Line} (h : Says rest said) (hkey : IsBareKey l.key) :
    ∃ a, l.IsAssignment a ∧ Says (l.written ++ rest) (.assign a :: said) := by
  obtain ⟨span, v, hv, hvalue⟩ := l.content.value_written rest
  have hundotted (r : List Char) :
      skipBlank (' ' :: '=' :: ' ' :: (l.content.written ++ '\n' :: rest)) ≠ '.' :: r :=
    fun h => absurd (List.cons.inj h).1 (by decide)
  obtain ⟨keySpan, hpath⟩ := keyPath_bare hkey (by decide) hundotted
  let a : Assignment := ⟨[], ⟨String.ofList l.key, keySpan⟩, ⟨span, v⟩⟩
  have htext : l.written ++ rest =
      l.key ++ ' ' :: '=' :: ' ' :: (l.content.written ++ '\n' :: rest) := by
    simp [Line.written]
  have hassign : assignment (Toml.value limit) (l.written ++ rest) = some (a, '\n' :: rest) := by
    have hequals : skipBlank (' ' :: '=' :: ' ' :: (l.content.written ++ '\n' :: rest)) =
        '=' :: ' ' :: (l.content.written ++ '\n' :: rest) := rfl
    have hskip : skipBlank (' ' :: (l.content.written ++ '\n' :: rest)) =
        l.content.written ++ '\n' :: rest := l.content.skipBlank_written
    rw [htext]
    simp only [assignment, hpath, hequals, Option.bind_eq_bind, Option.bind_some, hskip, hvalue]
    rfl
  refine ⟨a, ⟨rfl, rfl, hv⟩, ?_⟩
  have hblank := hkey.skipBlank (s := ' ' :: '=' :: ' ' :: (l.content.written ++ '\n' :: rest))
  obtain ⟨first, more, hbegins, hfirst⟩ := hkey.begins
  obtain ⟨-, -, -, -, hcomment, hline, hreturn, hheader⟩ := isBareKeyChar_ne hfirst
  rw [htext, hbegins, List.cons_append] at hassign ⊢
  rw [hbegins, List.cons_append] at hblank
  refine h.line hblank ⟨hcomment, hline, hreturn⟩ ?_ (by simp; omega)
  rw [if_neg hheader, hassign]
  rfl

/-- A table as it is written. -/
structure Table where
  name : List Char
  lines : List Line

namespace Table

def written (t : Table) : List Char :=
  '[' :: t.name ++ ']' :: '\n' :: t.lines.flatMap Line.written

/-- The section that a table is read as. -/
structure IsSection (t : Table) (s : Section) : Prop where
  single : s.repeated = false
  path : s.path = []
  key : s.key.text = String.ofList t.name
  body : List.Forall₂ Line.IsAssignment t.lines s.body

/-- A table that can be written without quotation marks around its keys, which differ. -/
structure IsPlain (t : Table) : Prop where
  name : IsBareKey t.name
  keys : ∀ l ∈ t.lines, IsBareKey l.key
  nodup : (t.lines.map Line.key).Nodup

end Table

/-- The statements of a section. -/
def Section.statements (s : Section) : List Statement :=
  .header s.repeated s.path s.key s.span :: s.body.map .assign

theorem Says.lines {lines : List Line} (h : Says rest said) (hkeys : ∀ l ∈ lines, IsBareKey l.key) :
    ∃ body, List.Forall₂ Line.IsAssignment lines body ∧
      Says (lines.flatMap Line.written ++ rest) (body.map .assign ++ said) := by
  induction lines with
  | nil => exact ⟨[], .nil, h⟩
  | cons l lines ih =>
    obtain ⟨body, hbody, hsays⟩ := ih fun l hl => hkeys l (List.mem_cons_of_mem _ hl)
    obtain ⟨a, ha, hsays⟩ := hsays.assign (hkeys l (List.mem_cons_self ..))
    refine ⟨a :: body, .cons ha hbody, ?_⟩
    rw [List.flatMap_cons, List.append_assoc]
    exact hsays

theorem Says.table {t : Table} (h : Says rest said) (ht : t.IsPlain) :
    ∃ s, t.IsSection s ∧ Says (t.written ++ rest) (s.statements ++ said) := by
  obtain ⟨body, hbody, hsays⟩ := h.lines ht.keys
  obtain ⟨key, span, hsays⟩ := hsays.header ht.name
  refine ⟨⟨false, [], ⟨String.ofList t.name, key⟩, span, body⟩, ⟨rfl, rfl, rfl, hbody⟩, ?_⟩
  have htext : t.written ++ rest =
      '[' :: t.name ++ ']' :: '\n' :: (t.lines.flatMap Line.written ++ rest) := by
    simp [Table.written]
  rw [htext]
  exact hsays

/-- An empty line between one table and the next. -/
def writeTables : List Table → List Char
  | [] => []
  | [t] => t.written
  | t :: ts => t.written ++ '\n' :: writeTables ts

theorem Says.tables {tables : List Table} (h : Says rest []) (htables : ∀ t ∈ tables, t.IsPlain) :
    ∃ ss, List.Forall₂ Table.IsSection tables ss ∧
      Says (writeTables tables ++ rest) (ss.flatMap Section.statements) := by
  induction tables with
  | nil => exact ⟨[], .nil, h⟩
  | cons t ts ih =>
    obtain ⟨ss, hss, hsays⟩ := ih fun t ht => htables t (List.mem_cons_of_mem _ ht)
    have ht := htables t (List.mem_cons_self ..)
    cases ts with
    | nil =>
      cases hss
      obtain ⟨s, hs, hsays⟩ := h.table ht
      exact ⟨[s], .cons hs .nil, hsays⟩
    | cons t' ts =>
      obtain ⟨s, hs, hsays⟩ := hsays.newline.table ht
      refine ⟨s :: ss, .cons hs hss, ?_⟩
      rw [writeTables, List.append_assoc]
      · exact hsays
      · exact fun h => List.cons_ne_nil _ _ h

end DocBuild.Toml
