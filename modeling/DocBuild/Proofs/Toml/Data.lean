import DocBuild.Toml.Document

namespace DocBuild.Toml

/-- A value, however it was written. -/
inductive Data where
  | string (text : String)
  | integer (n : Int)
  | float (x : Binary64)
  | boolean (b : Bool)
  | dateTime
  | array (items : List Data)
  | table (entries : List (String × Data))

/-- The contents of a table, however they were written. -/
abbrev Mapping := List (String × Data)

namespace Value

mutual

/-- What a value says. -/
def data : Value → Data
  | string text => .string text
  | integer n => .integer n
  | float x => .float x
  | boolean b => .boolean b
  | dateTime => .dateTime
  | array items => .array (itemsData items)
  | tables rows => .array (rowsData rows)
  | table _ entries => .table (entriesData entries)

def itemsData : List Node → List Data
  | [] => []
  | ⟨_, item⟩ :: items => item.data :: itemsData items

def rowsData : List (Option Span × Entries) → List Data
  | [] => []
  | (_, entries) :: rows => .table (entriesData entries) :: rowsData rows

def entriesData : Entries → Mapping
  | [] => []
  | (key, ⟨_, item⟩) :: entries => (key.text, item.data) :: entriesData entries

end

end Value

/-- What the contents of a table say. -/
def Entries.data (entries : Entries) : Mapping :=
  entries.map fun e => (e.1.text, e.2.item.data)

namespace Value

@[simp] theorem data_array (items : List Node) :
    (array items).data = .array (items.map (·.item.data)) := by
  have h (items : List Node) : itemsData items = items.map (·.item.data) := by
    induction items with
    | nil => rfl
    | cons node items ih => rw [itemsData, ih, List.map_cons]
  rw [data, h]

theorem entriesData_eq (entries : Entries) : entriesData entries = entries.data := by
  induction entries with
  | nil => rfl
  | cons e entries ih => rw [entriesData, ih, Entries.data, Entries.data, List.map_cons]

@[simp] theorem data_table (kind : TableKind) (entries : Entries) :
    (table kind entries).data = .table entries.data := by
  rw [data, entriesData_eq]

@[simp] theorem data_tables (rows : List (Option Span × Entries)) :
    (tables rows).data = .array (rows.map fun row => .table row.2.data) := by
  have h (rows : List (Option Span × Entries)) :
      rowsData rows = rows.map fun row => .table row.2.data := by
    induction rows with
    | nil => rfl
    | cons row rows ih => rw [rowsData, ih, entriesData_eq, List.map_cons]
  rw [data, h]

end Value

namespace Data

def text? : Data → Option String
  | string text => some text
  | _ => none

/-- The strings of an array that holds nothing else. -/
def texts? : Data → Option (List String)
  | array items => items.mapM text?
  | _ => none

end Data

namespace Data

mutual

/-- Whether two values are the same. -/
def same : Data → Data → Bool
  | string s, string t => s = t
  | integer m, integer n => m = n
  | float x, float y => x = y
  | boolean a, boolean b => a = b
  | dateTime, dateTime => true
  | array as, array bs => sameItems as bs
  | table as, table bs => sameEntries as bs
  | _, _ => false

def sameItems : List Data → List Data → Bool
  | [], [] => true
  | a :: as, b :: bs => same a b && sameItems as bs
  | _, _ => false

def sameEntries : Mapping → Mapping → Bool
  | [], [] => true
  | (k, a) :: as, (l, b) :: bs => k = l && same a b && sameEntries as bs
  | _, _ => false

end

mutual

theorem same_iff : ∀ {a b : Data}, same a b = true ↔ a = b
  | string s, b => by cases b <;> simp [same]
  | integer n, b => by cases b <;> simp [same]
  | float x, b => by cases b <;> simp [same]
  | boolean x, b => by cases b <;> simp [same]
  | dateTime, b => by cases b <;> simp [same]
  | array as, b => by cases b <;> simp [same, sameItems_iff]
  | table as, b => by cases b <;> simp [same, sameEntries_iff]

theorem sameItems_iff : ∀ {as bs : List Data}, sameItems as bs = true ↔ as = bs
  | [], bs => by cases bs <;> simp [sameItems]
  | a :: as, bs => by cases bs <;> simp [sameItems, same_iff, sameItems_iff]

theorem sameEntries_iff : ∀ {as bs : Mapping}, sameEntries as bs = true ↔ as = bs
  | [], bs => by cases bs <;> simp [sameEntries]
  | (k, a) :: as, bs => by
    rcases bs with _ | ⟨⟨l, b⟩, bs⟩ <;> simp [sameEntries, same_iff, sameEntries_iff]

end

instance : DecidableEq Data := fun _ _ => decidable_of_iff _ same_iff

end Data

namespace Mapping

variable {m m' : Mapping} {k k' : String} {d : Data} {change : Data → Data}

/-- Changes the value of a key, if there is one. -/
def update (k : String) (change : Data → Data) (m : Mapping) : Mapping :=
  m.map fun e => if e.1 = k then (e.1, change e.2) else e

def without (k : String) (m : Mapping) : Mapping :=
  m.filter fun e => e.1 ≠ k

theorem lookup_cons : List.lookup k' ((k, d) :: m) = if k' = k then some d else m.lookup k' := by
  rw [List.lookup_cons]
  by_cases h : k' = k
  · simp [h]
  · rw [beq_false_of_ne h, if_neg h]

theorem lookup_concat (h : m.lookup k = none) :
    (m ++ [(k, d)]).lookup k' = if k' = k then some d else m.lookup k' := by
  rw [List.lookup_append, lookup_cons, List.lookup_nil]
  by_cases hk : k' = k
  · rw [hk, h, if_pos rfl, Option.none_or]
  · rw [if_neg hk, if_neg hk, Option.or_none]

theorem lookup_update : (m.update k change).lookup k' =
    if k' = k then (m.lookup k).map change else m.lookup k' := by
  induction m with
  | nil => simp [update]
  | cons e m ih =>
    obtain ⟨key, d⟩ := e
    have hhead : update k change ((key, d) :: m) =
        (key, if key = k then change d else d) :: update k change m := by
      rw [update, update, List.map_cons]
      by_cases h : key = k <;> simp [h]
    rw [hhead, lookup_cons, lookup_cons, lookup_cons, ih]
    by_cases hk : k' = k
    · subst hk
      by_cases hkey : k' = key
      · simp [hkey]
      · simp [hkey]
    · by_cases hkey : k' = key
      · simp [← hkey, hk]
      · simp [hkey, hk]

theorem lookup_without : (m.without k).lookup k' = if k' = k then none else m.lookup k' := by
  induction m with
  | nil => simp [without]
  | cons e m ih =>
    obtain ⟨key, d⟩ := e
    have hhead : without k ((key, d) :: m) =
        if key = k then without k m else (key, d) :: without k m := by
      rw [without, List.filter_cons, ← without]
      by_cases h : key = k <;> simp [h]
    rw [hhead]
    by_cases hkey : key = k
    · rw [if_pos hkey, ih, lookup_cons, hkey]
      by_cases hk : k' = k <;> simp [hk]
    · rw [if_neg hkey, lookup_cons, lookup_cons, ih]
      by_cases hk : k' = key
      · simp [hk, hkey]
      · simp [hk]

/-- A mapping without a key that is given twice says for a key what one of its entries says. -/
theorem lookup_eq_some_iff (h : (m.map Prod.fst).Nodup) : m.lookup k = some d ↔ (k, d) ∈ m := by
  constructor
  · intro hlookup
    obtain ⟨before, after, rfl, -⟩ := List.lookup_eq_some_iff.1 hlookup
    exact List.mem_append_right before List.mem_cons_self
  · intro hmem
    obtain ⟨before, after, rfl⟩ := List.append_of_mem hmem
    refine List.lookup_eq_some_iff.2 ⟨before, after, rfl, fun e he => ?_⟩
    rw [List.map_append, List.map_cons, List.nodup_append] at h
    rw [bne_iff_ne]
    exact (h.2.2 e.1 (List.mem_map_of_mem he) k List.mem_cons_self).symm

/-- The order of the entries has no part in what a mapping says. -/
theorem lookup_perm (hperm : m.Perm m') (h : (m.map Prod.fst).Nodup) : m.lookup k = m'.lookup k := by
  have h' : (m'.map Prod.fst).Nodup := (hperm.map Prod.fst).nodup_iff.1 h
  refine Option.ext fun d => ?_
  rw [lookup_eq_some_iff h, lookup_eq_some_iff h', hperm.mem_iff]

end Mapping

namespace Entries

variable {entries : Entries} {text : String} {k : Key} {node : Node}

@[simp] theorem data_nil : Entries.data [] = [] := rfl

@[simp] theorem data_concat : Entries.data (entries ++ [(k, node)]) =
    entries.data ++ [(k.text, node.item.data)] := by
  rw [Entries.data, List.map_append]
  rfl

@[simp] theorem data_erase : (entries.erase text).data = entries.data.without text := by
  rw [Entries.data, Entries.data, Entries.erase, Mapping.without, List.filter_map]
  rfl

@[simp] theorem data_replace : (entries.replace text node).data =
    entries.data.update text fun _ => node.item.data := by
  rw [Entries.data, Entries.data, Entries.replace, Mapping.update, List.map_map, List.map_map]
  refine List.map_congr_left fun e _ => ?_
  by_cases h : e.1.text = text <;> simp [h]

theorem lookup_data : entries.data.lookup text = (entries.get? text).map (·.item.data) := by
  induction entries with
  | nil => rfl
  | cons e entries ih =>
    rw [Entries.data, List.map_cons, Mapping.lookup_cons]
    by_cases htext : e.1.text = text
    · simp [htext, get?]
    · rw [if_neg (Ne.symm htext), get?, List.find?_cons_of_neg (by simpa using htext)]
      exact ih

end Entries
end DocBuild.Toml
