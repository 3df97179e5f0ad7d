import DocBuild.Proofs.Toml.Assembly
import DocBuild.Proofs.Toml.Data
import DocBuild.Toml.Reader

namespace DocBuild.Toml

namespace Entries

/-- The keys of a table, in order. -/
def keys (entries : Entries) : List String :=
  entries.map (·.1.text)

end Entries

/-- No table in the value gives a key twice. -/
inductive Value.Distinct : Value → Prop where
  | string (text : String) : (Value.string text).Distinct
  | integer (n : Int) : (Value.integer n).Distinct
  | float (x : Binary64) : (Value.float x).Distinct
  | boolean (b : Bool) : (Value.boolean b).Distinct
  | dateTime : Value.dateTime.Distinct
  | array {items : List Node} (values : ∀ node ∈ items, node.item.Distinct) :
    (Value.array items).Distinct
  | tables {rows : List (Option Span × Entries)}
    (keys : ∀ row ∈ rows, row.2.keys.Nodup) (values : ∀ row ∈ rows, ∀ e ∈ row.2, e.2.item.Distinct) :
    (Value.tables rows).Distinct
  | table {kind : TableKind} {entries : Entries} (keys : entries.keys.Nodup)
    (values : ∀ e ∈ entries, e.2.item.Distinct) : (Value.table kind entries).Distinct

/-- No key is given twice, here or in a table below. -/
structure Entries.Distinct (entries : Entries) : Prop where
  keys : entries.keys.Nodup
  values : ∀ e ∈ entries, e.2.item.Distinct

namespace Value

variable {items : List Node} {rows : List (Option Span × Entries)} {kind : TableKind}
  {entries : Entries}

theorem distinct_table_iff : (table kind entries).Distinct ↔ entries.Distinct :=
  ⟨fun h => by cases h with | table keys values => exact ⟨keys, values⟩, fun h => .table h.keys h.values⟩

theorem distinct_tables_iff : (tables rows).Distinct ↔ ∀ row ∈ rows, row.2.Distinct := by
  constructor
  · intro h row hrow
    cases h with
    | tables keys values => exact ⟨keys row hrow, values row hrow⟩
  · exact fun h => .tables (fun row hrow => (h row hrow).keys) fun row hrow => (h row hrow).values

end Value

namespace Entries

variable {entries entries' : Entries} {k : Key} {text : String} {node : Node} {kind : TableKind}

theorem distinct_nil : Distinct [] :=
  ⟨List.nodup_nil, List.forall_mem_nil _⟩

theorem Distinct.concat (h : entries.Distinct) (hnew : k.text ∉ entries.keys)
    (hnode : node.item.Distinct) : Distinct (entries ++ [(k, node)]) where
  keys := by
    rw [Entries.keys, List.map_append]
    refine List.nodup_append.2 ⟨h.keys, by simp, ?_⟩
    rintro a ha b hb rfl
    obtain rfl := List.mem_singleton.1 hb
    exact hnew ha
  values e he := by
    rcases List.mem_append.1 he with he | he
    · exact h.values e he
    · obtain rfl := List.mem_singleton.1 he
      exact hnode

theorem Distinct.replace (h : entries.Distinct) (hnode : node.item.Distinct) :
    (entries.replace text node).Distinct where
  keys := by
    have hkeys : (entries.replace text node).keys = entries.keys := by
      rw [Entries.keys, Entries.replace, List.map_map]
      refine List.map_congr_left fun e _ => ?_
      dsimp only [Function.comp]
      split <;> rfl
    rw [hkeys]
    exact h.keys
  values e he := by
    obtain ⟨old, hold, rfl⟩ := List.mem_map.1 he
    split
    · exact hnode
    · exact h.values old hold

theorem Distinct.erase (h : entries.Distinct) : (entries.erase text).Distinct where
  keys := h.keys.sublist (List.filter_sublist.map _)
  values e he := h.values e (List.mem_filter.1 he).1

theorem not_mem_keys_erase : text ∉ (entries.erase text).keys := by
  simp [Entries.keys, Entries.erase]

theorem not_mem_keys_iff : text ∉ entries.keys ↔ entries.get? text = none := by
  simp [Entries.keys, get?]

theorem Distinct.nodup_data (h : entries.Distinct) : (entries.data.map Prod.fst).Nodup := by
  rw [Entries.data, List.map_map]
  exact h.keys

theorem Distinct.get? (h : entries.Distinct) (hget : entries.get? text = some node) :
    node.item.Distinct := by
  obtain ⟨e, he, rfl⟩ := Option.map_eq_some_iff.1 hget
  exact h.values e (List.mem_of_find?_eq_some he)

/-- A change to a table below keeps all keys different if the change itself does. -/
theorem Distinct.alter {fresh : TableKind} {change : TableKind → Entries → Option Entries}
    (hchange : ∀ kind entries entries', change kind entries = some entries' → entries.Distinct →
      entries'.Distinct)
    {path : List Key} (h : entries.Distinct)
    (halter : Entries.alter fresh change path kind entries = some entries') : entries'.Distinct := by
  induction path generalizing kind entries entries' with
  | nil => exact hchange _ _ _ halter h
  | cons k path ih =>
    cases enters_of_alter halter with
    | missing hget hinner =>
      apply h.concat (not_mem_keys_iff.2 hget)
      exact Value.distinct_table_iff.2 (ih distinct_nil hinner)
    | table hget hinner =>
      have hold := Value.distinct_table_iff.1 (h.get? hget)
      exact h.replace (Value.distinct_table_iff.2 (ih hold hinner))
    | @row _ _ rows _ _ hget hlast hinner =>
      have hold := Value.distinct_tables_iff.1 (h.get? hget)
      apply h.replace
      refine Value.distinct_tables_iff.2 fun r hr => ?_
      rcases List.mem_append.1 hr with hr | hr
      · exact hold r ((List.dropLast_sublist rows).mem hr)
      · obtain rfl := List.mem_singleton.1 hr
        exact ih (hold _ (List.mem_of_getLast? hlast)) hinner

theorem Distinct.assign {a : Assignment} (h : entries.Distinct) (hvalue : a.value.item.Distinct)
    (hassign : Entries.assign kind entries a = some entries') : entries'.Distinct := by
  obtain ⟨change, hchange, halter⟩ := exists_assign_eq a
  rw [halter] at hassign
  refine h.alter (fun kind entries entries' hdone h => ?_) hassign
  obtain ⟨hnew, rfl⟩ := hchange _ _ _ hdone
  exact h.concat (not_mem_keys_iff.2 hnew) hvalue

theorem Distinct.assignAll {body : List Assignment} (h : entries.Distinct)
    (hvalues : ∀ a ∈ body, a.value.item.Distinct)
    (hassign : Entries.assignAll kind entries body = some entries') : entries'.Distinct := by
  induction body generalizing entries with
  | nil =>
    obtain rfl := Option.some.inj hassign
    exact h
  | cons a body ih =>
    rw [Entries.assignAll, List.foldlM_cons] at hassign
    obtain ⟨next, hfirst, hrest⟩ := Option.bind_eq_some_iff.1 hassign
    exact ih (h.assign (hvalues a List.mem_cons_self) hfirst)
      (fun b hb => hvalues b (List.mem_cons_of_mem a hb)) hrest

theorem Distinct.place {s : Section} (h : entries.Distinct)
    (hvalues : ∀ a ∈ s.body, a.value.item.Distinct) (hplace : s.place entries = some entries') :
    entries'.Distinct := by
  obtain ⟨change, hchange, halter⟩ := s.exists_place_eq
  rw [halter] at hplace
  refine h.alter (fun kind entries entries' hdone h => ?_) hplace
  cases hchange _ _ _ hdone with
  | table _ hget hinner =>
    apply h.concat (not_mem_keys_iff.2 hget)
    exact Value.distinct_table_iff.2 (distinct_nil.assignAll hvalues hinner)
  | implied _ hget hinner =>
    have hold := Value.distinct_table_iff.1 (h.get? hget)
    apply h.erase.concat not_mem_keys_erase
    exact Value.distinct_table_iff.2 (hold.assignAll hvalues hinner)
  | first _ hget hrow =>
    apply h.concat (not_mem_keys_iff.2 hget)
    refine Value.distinct_tables_iff.2 fun r hr => ?_
    obtain rfl := List.mem_singleton.1 hr
    exact distinct_nil.assignAll hvalues hrow
  | next _ hget hrow =>
    have hold := Value.distinct_tables_iff.1 (h.get? hget)
    apply h.replace
    refine Value.distinct_tables_iff.2 fun r hr => ?_
    rcases List.mem_append.1 hr with hr | hr
    · exact hold r hr
    · obtain rfl := List.mem_singleton.1 hr
      exact distinct_nil.assignAll hvalues hrow

theorem Distinct.placeAll {ss : List Section} (h : entries.Distinct)
    (hvalues : ∀ s ∈ ss, ∀ a ∈ s.body, a.value.item.Distinct)
    (hplace : ss.foldlM (fun root s => s.place root) entries = some entries') :
    entries'.Distinct := by
  induction ss generalizing entries with
  | nil =>
    obtain rfl := Option.some.inj hplace
    exact h
  | cons s ss ih =>
    obtain ⟨next, hnext, hrest⟩ := Option.bind_eq_some_iff.1 hplace
    exact ih (h.place (hvalues s List.mem_cons_self) hnext)
      (fun t ht => hvalues t (List.mem_cons_of_mem s ht)) hrest

end Entries

theorem distinct_inlineTable? {pairs : List Assignment} {v : Value}
    (hvalues : ∀ a ∈ pairs, a.value.item.Distinct) (h : inlineTable? pairs = some v) :
    v.Distinct := by
  obtain ⟨entries, hentries, rfl⟩ := Option.map_eq_some_iff.1 h
  exact Value.distinct_table_iff.2 (Entries.distinct_nil.assignAll hvalues hentries)

theorem distinct_assemble? {top : List Assignment} {ss : List Section}
    (htop : ∀ a ∈ top, a.value.item.Distinct)
    (hsections : ∀ s ∈ ss, ∀ a ∈ s.body, a.value.item.Distinct)
    {root : Entries} (h : assemble? top ss = some root) : root.Distinct := by
  obtain ⟨first, hfirst, h⟩ := Option.bind_eq_some_iff.1 h
  exact (Entries.distinct_nil.assignAll htop hfirst).placeAll hsections h

section

variable {read : List Char → Option (Node × List Char)} {s rest : List Char} {node : Node}

/-- A reader of values without a key that is given twice. -/
def ReadsDistinct (read : List Char → Option (Node × List Char)) : Prop :=
  ∀ {s node rest}, read s = some (node, rest) → node.item.Distinct

theorem located_eq_some {α : Type} {read : List Char → Option (α × List Char)} {x : Located α}
    (h : located read s = some (x, rest)) : read s = some (x.item, rest) := by
  obtain ⟨⟨item, rest'⟩, hread, hdone⟩ := Option.bind_eq_some_iff.1 h
  obtain ⟨rfl, rfl⟩ := Prod.mk.inj (Option.some.inj hdone)
  exact hread

theorem distinct_scalar {v : Value} (h : scalar s = some (v, rest)) : v.Distinct := by
  unfold scalar at h
  split at h
  · obtain ⟨rfl, -⟩ := Prod.mk.inj (Option.some.inj h)
    exact .boolean true
  · obtain ⟨rfl, -⟩ := Prod.mk.inj (Option.some.inj h)
    exact .boolean false
  · cases h
  split at h
  · obtain ⟨t, -, ht⟩ := Option.map_eq_some_iff.1 h
    obtain ⟨rfl, -⟩ := Prod.mk.inj ht
    exact .string _
  split at h
  · split at h
    · obtain ⟨rfl, -⟩ := Prod.mk.inj (Option.some.inj h)
      exact .dateTime
    · split at h
      · obtain ⟨rfl, -⟩ := Prod.mk.inj (Option.some.inj h)
        exact .float _
      · obtain ⟨n, -, hn⟩ := Option.map_eq_some_iff.1 h
        obtain ⟨rfl, -⟩ := Prod.mk.inj hn
        exact .integer _
  · cases h

theorem distinct_arrayItems (hread : ReadsDistinct read) {fuel : Nat} {items : List Node}
    (h : arrayItems read fuel s = some (items, rest)) : ∀ node ∈ items, node.item.Distinct := by
  induction fuel generalizing s rest items with
  | zero => cases h
  | succ fuel ih =>
    unfold arrayItems at h
    split at h
    · obtain ⟨rfl, -⟩ := Prod.mk.inj (Option.some.inj h)
      exact List.forall_mem_nil _
    obtain ⟨⟨item, rest'⟩, hitem, h⟩ := Option.bind_eq_some_iff.1 h
    dsimp only at h
    split at h
    · obtain ⟨⟨more, rest''⟩, hmore, hdone⟩ := Option.bind_eq_some_iff.1 h
      obtain ⟨rfl, rfl⟩ := Prod.mk.inj (Option.some.inj hdone)
      exact List.forall_mem_cons.2 ⟨hread hitem, ih hmore⟩
    · obtain ⟨rfl, -⟩ := Prod.mk.inj (Option.some.inj h)
      exact List.forall_mem_cons.2 ⟨hread hitem, List.forall_mem_nil _⟩
    · cases h

theorem distinct_assignment (hread : ReadsDistinct read) {a : Assignment}
    (h : assignment read s = some (a, rest)) : a.value.item.Distinct := by
  obtain ⟨⟨⟨path, key⟩, s'⟩, -, h⟩ := Option.bind_eq_some_iff.1 h
  dsimp only at h
  split at h
  · obtain ⟨⟨node, rest'⟩, hnode, hdone⟩ := Option.bind_eq_some_iff.1 h
    obtain ⟨rfl, -⟩ := Prod.mk.inj (Option.some.inj hdone)
    exact hread hnode
  · cases h

theorem distinct_inlinePairs (hread : ReadsDistinct read) {fuel : Nat} {pairs : List Assignment}
    (h : inlinePairs read fuel s = some (pairs, rest)) : ∀ a ∈ pairs, a.value.item.Distinct := by
  induction fuel generalizing s rest pairs with
  | zero => cases h
  | succ fuel ih =>
    unfold inlinePairs at h
    obtain ⟨⟨pair, rest'⟩, hpair, h⟩ := Option.bind_eq_some_iff.1 h
    dsimp only at h
    split at h
    · obtain ⟨⟨more, rest''⟩, hmore, hdone⟩ := Option.bind_eq_some_iff.1 h
      obtain ⟨rfl, rfl⟩ := Prod.mk.inj (Option.some.inj hdone)
      exact List.forall_mem_cons.2 ⟨distinct_assignment hread hpair, ih hmore⟩
    · obtain ⟨rfl, -⟩ := Prod.mk.inj (Option.some.inj h)
      exact List.forall_mem_cons.2 ⟨distinct_assignment hread hpair, List.forall_mem_nil _⟩
    · cases h

/-- A value gives no key twice, however deep its tables are: the elements of an array and the pairs
    between braces are read one level down. -/
theorem readsDistinct_value (depth : Nat) : ReadsDistinct (value depth) := by
  induction depth with
  | zero => exact fun h => distinct_scalar (located_eq_some h)
  | succ depth ih =>
    intro s node rest h
    unfold value at h
    split at h
    · replace h := located_eq_some h
      obtain ⟨⟨items, rest'⟩, hitems, hdone⟩ := Option.bind_eq_some_iff.1 h
      obtain ⟨hitem, -⟩ := Prod.mk.inj (Option.some.inj hdone)
      rw [← hitem]
      exact .array (distinct_arrayItems ih hitems)
    · replace h := located_eq_some h
      split at h
      · obtain ⟨hitem, -⟩ := Prod.mk.inj (Option.some.inj h)
        rw [← hitem]
        exact Value.distinct_table_iff.2 Entries.distinct_nil
      · obtain ⟨⟨pairs, rest'⟩, hpairs, h⟩ := Option.bind_eq_some_iff.1 h
        obtain ⟨v, hv, hdone⟩ := Option.bind_eq_some_iff.1 h
        obtain ⟨rfl, -⟩ := Prod.mk.inj (Option.some.inj hdone)
        exact distinct_inlineTable? (distinct_inlinePairs ih hpairs) hv
    · exact distinct_scalar (located_eq_some h)

end

/-- What a statement assigns gives no key twice. -/
def Statement.Distinct : Statement → Prop
  | assign a => a.value.item.Distinct
  | header .. => True

theorem distinct_header {s rest : List Char} {st : Statement} (h : header s = some (st, rest)) :
    st.Distinct := by
  unfold header at h
  split at h
  · obtain ⟨⟨⟨path, key⟩, s'⟩, -, h⟩ := Option.bind_eq_some_iff.1 h
    dsimp only at h
    split at h
    · obtain ⟨rfl, -⟩ := Prod.mk.inj (Option.some.inj h)
      trivial
    · cases h
  · obtain ⟨⟨⟨path, key⟩, s'⟩, -, h⟩ := Option.bind_eq_some_iff.1 h
    dsimp only at h
    split at h
    · obtain ⟨rfl, -⟩ := Prod.mk.inj (Option.some.inj h)
      trivial
    · cases h
  · cases h

theorem distinct_statements {fuel : Nat} {s : List Char} {said : List Statement}
    (h : statements fuel s = some said) : ∀ st ∈ said, st.Distinct := by
  induction fuel generalizing s said with
  | zero =>
    unfold statements at h
    split at h
    · obtain rfl := Option.some.inj h
      exact List.forall_mem_nil _
    · cases h
  | succ fuel ih =>
    unfold statements at h
    split at h
    · obtain rfl := Option.some.inj h
      exact List.forall_mem_nil _
    next c r hs =>
    split at h
    · obtain ⟨rest, -, h⟩ := Option.bind_eq_some_iff.1 h
      exact ih h
    have hsaid {st : Statement} (hst : st.Distinct) {rest : List Char}
        (h : (do return st :: (← statements fuel (← endOfLine? rest))) = some said) :
        ∀ st ∈ said, st.Distinct := by
      obtain ⟨rest', -, h⟩ := Option.bind_eq_some_iff.1 h
      obtain ⟨more, hmore, hdone⟩ := Option.bind_eq_some_iff.1 h
      obtain rfl := Option.some.inj hdone
      exact List.forall_mem_cons.2 ⟨hst, ih hmore⟩
    dsimp only at h
    split at h
    · obtain ⟨⟨st, rest⟩, hst, h⟩ := Option.bind_eq_some_iff.1 h
      exact hsaid (distinct_header hst) h
    · obtain ⟨⟨st, rest⟩, hst, h⟩ := Option.bind_eq_some_iff.1 h
      obtain ⟨⟨a, rest'⟩, ha, hst⟩ := Option.map_eq_some_iff.1 hst
      obtain ⟨rfl, rfl⟩ := Prod.mk.inj hst
      have hst : (Statement.assign a).Distinct := distinct_assignment (readsDistinct_value limit) ha
      exact hsaid hst h

theorem distinct_sections {said : List Statement} (h : ∀ st ∈ said, st.Distinct) :
    (∀ a ∈ (sections said).1, a.value.item.Distinct) ∧
      ∀ s ∈ (sections said).2, ∀ a ∈ s.body, a.value.item.Distinct := by
  induction said with
  | nil => exact ⟨List.forall_mem_nil _, List.forall_mem_nil _⟩
  | cons st said ih =>
    obtain ⟨hst, hsaid⟩ := List.forall_mem_cons.1 h
    obtain ⟨htop, hmore⟩ := ih hsaid
    cases st with
    | assign a => exact ⟨List.forall_mem_cons.2 ⟨hst, htop⟩, hmore⟩
    | header => exact ⟨List.forall_mem_nil _, List.forall_mem_cons.2 ⟨htop, hmore⟩⟩

/-- A document gives no key twice. -/
theorem distinct_document? {text : List Char} {root : Entries} (h : document? text = some root) :
    root.Distinct := by
  obtain ⟨said, hsaid, h⟩ := Option.bind_eq_some_iff.1 h
  obtain ⟨htop, hsections⟩ := distinct_sections (distinct_statements hsaid)
  exact distinct_assemble? htop hsections h

end DocBuild.Toml
