import DocBuild.Proofs.Settings.Layers
import DocBuild.Proofs.Settings.Mentions
import DocBuild.Proofs.Toml.Distinct
import Mathlib.Data.List.Forall2

namespace DocBuild

open Toml (Data Mapping Node Entries Mismatch)

/-- Where no key is given twice, its last value is its only one. -/
theorem Toml.Entries.Distinct.last?_data {entries : Entries} {text : String}
    (h : entries.Distinct) : (entries.last? text).map (·.item.data) = entries.data.lookup text := by
  rw [last?, ← lookup_data]
  exact (Mapping.lookup_perm ((List.reverse_perm entries).symm.map _) h.nodup_data).symm

/-- In related lists, everything on the left has something on the right that it is related to. -/
theorem exists_related {α β : Type} {R : α → β → Prop} {as : List α} {bs : List β} {a : α}
    (h : List.Forall₂ R as bs) (ha : a ∈ as) : ∃ b ∈ bs, R a b := by
  induction h with
  | nil => cases ha
  | @cons c b as bs hcb _ ih =>
    rcases List.mem_cons.1 ha with rfl | ha
    · exact ⟨b, List.mem_cons_self, hcb⟩
    · obtain ⟨b', hb', hrelated⟩ := ih ha
      exact ⟨b', List.mem_cons_of_mem b hb', hrelated⟩

namespace Field

open Settings (Setting)

variable {σ : Type} {fields : List (Field σ)} {start s : σ} {entries : Entries} {items : List Node}
  {node : Node} {put : σ → Settings} {x : Setting} {xs : List Setting}

theorem text_eq_ok_iff {t : String} : text node = .ok t ↔ node.item.data.text? = some t := by
  obtain ⟨span, item⟩ := node
  cases item <;> simp [text, Toml.Value.data, Data.text?]

theorem mapM_text_eq_ok_iff {ts : List String} :
    items.mapM text = .ok ts ↔ (items.map (·.item.data)).mapM Data.text? = some ts := by
  induction items generalizing ts with
  | nil => simp [pure, Except.pure]
  | cons node items ih =>
    simp only [List.mapM_cons, List.map_cons, Sequence.bind_eq_ok_iff, Option.bind_eq_bind,
      Option.bind_eq_some_iff, text_eq_ok_iff, ih]
    simp [pure, Except.pure]

theorem texts_eq_ok_iff {ts : List String} :
    texts node = .ok ts ↔ node.item.data.texts? = some ts := by
  obtain ⟨span, item⟩ := node
  cases item
  case array items => simpa [texts, Data.texts?] using mapM_text_eq_ok_iff
  case tables rows =>
    have h := @mapM_text_eq_ok_iff (rows.map fun row => ⟨row.1, .table .header row.2⟩) ts
    simpa [texts, Data.texts?, List.mapM_map, Function.comp_def] using h
  all_goals simp [texts, Toml.Value.data, Data.texts?]

/-- The field takes a value for one setting and has no part in the others. -/
structure StandsFor (put : σ → Settings) (f : Field σ) (x : Setting) : Prop where
  name : f.name = x.key
  accepts : ∀ node s, (∃ s', f.store node s = .ok s') ↔ (x.content? node.item.data).isSome
  stored : ∀ {node s s'}, f.store node s = .ok s' →
    x.content? node.item.data = some (x.get (put s'))
  kept : ∀ {node s s' y}, f.store node s = .ok s' → y ≠ x → y.get (put s') = y.get (put s)

theorem standsFor {read : Node → Except Mismatch x.Holds} {set : x.Holds → σ → σ}
    (hread : ∀ {node a}, read node = .ok a ↔ x.content? node.item.data = some a)
    (hset : ∀ a s, x.get (put (set a s)) = a)
    (hother : ∀ a s y, y ≠ x → y.get (put (set a s)) = y.get (put s)) :
    StandsFor put ⟨x.key, fun v s => return set (← read v) s⟩ x := by
  refine ⟨rfl, fun node s => ?_, fun {node s s'} h => ?_, fun {node s s' y} h hy => ?_⟩
  · rw [Sequence.exists_bind_return_iff, Option.isSome_iff_exists]
    exact exists_congr fun a => hread
  · obtain ⟨a, ha, rfl⟩ := Sequence.bind_return_eq_ok_iff.1 h
    rw [hread.1 ha, hset]
  · obtain ⟨a, -, rfl⟩ := Sequence.bind_return_eq_ok_iff.1 h
    exact hother a s y hy

/-- Entries are stored when all those are that a field has a part in. -/
theorem exists_storeEntries_iff {accepts : Toml.Key × Node → Prop}
    (haccepts : ∀ e ∈ entries, ∀ f ∈ fields, f.name = e.1.text → ∀ s,
      (∃ s', f.store (keyed e.1 e.2) s = .ok s') ↔ accepts e) :
    (∃ s, storeEntries fields start entries = .ok s) ↔
      ∀ e ∈ entries, e.1.text ∈ fields.map Field.name → accepts e := by
  induction entries generalizing start with
  | nil => simp [storeEntries, pure, Except.pure]
  | cons e entries ih =>
    replace ih {start : σ} := @ih start fun e he => haccepts e (List.mem_cons_of_mem _ he)
    rw [List.forall_mem_cons]
    cases hfound : fields.find? (·.name = e.1.text) with
    | none =>
      have hno : e.1.text ∉ fields.map Field.name := by
        simpa using hfound
      have hpassed : storeEntries fields start (e :: entries) = storeEntries fields start entries := by
        simp only [storeEntries, List.foldlM_cons, hfound]
        rfl
      rw [hpassed, ih]
      exact (and_iff_right fun h => absurd h hno).symm
    | some f =>
      have hf : f ∈ fields := List.mem_of_find?_eq_some hfound
      have hname : f.name = e.1.text := by simpa using List.find?_some hfound
      have hstep : storeEntries fields start (e :: entries) =
          f.store (keyed e.1 e.2) start >>= fun s => storeEntries fields s entries := by
        simp only [storeEntries, List.foldlM_cons, hfound]
      have hmem : e.1.text ∈ fields.map Field.name := hname ▸ List.mem_map_of_mem hf
      rw [hstep, Sequence.exists_bind_iff fun next => @ih next,
        haccepts e List.mem_cons_self f hf hname start, imp_iff_right hmem]

variable (hlaw : List.Forall₂ (StandsFor put) fields xs)

include hlaw

theorem names_eq_keys : fields.map Field.name = xs.map Setting.key := by
  induction hlaw with
  | nil => rfl
  | cons hf _ ih => rw [List.map_cons, List.map_cons, hf.name, ih]

/-- Elements are stored when each of those that a field stands for is of its kind. -/
theorem exists_storeItems_iff : (∃ s, storeItems fields start items = .ok s) ↔
    ∀ e ∈ xs.zip items, (e.1.content? e.2.item.data).isSome := by
  induction hlaw generalizing start items with
  | nil => simp [storeItems, pure, Except.pure]
  | @cons f x fields xs hf _ ih =>
    cases items with
    | nil => simp [storeItems, pure, Except.pure]
    | cons node items =>
      have hstep : storeItems (f :: fields) start (node :: items) =
          f.store node start >>= fun s => storeItems fields s items := by
        simp only [storeItems, List.zip_cons_cons, List.foldlM_cons]
      rw [hstep, Sequence.exists_bind_iff fun next => @ih next items, hf.accepts, List.zip_cons_cons,
        List.forall_mem_cons]

/-- Storing elements leaves in a setting what the element at its position is. -/
theorem get_storeItems {i : Nat} (hnodup : xs.Nodup) (hx : xs[i]? = some x)
    (h : storeItems fields start items = .ok s) :
    x.get (put s) = ((items[i]?).bind (x.content? ·.item.data)).getD (x.get (put start)) := by
  induction hlaw generalizing start items i with
  | nil => cases hx
  | @cons f y fields xs hf hrest ih =>
    cases items with
    | nil =>
      obtain rfl := Except.ok.inj h
      rfl
    | cons node items =>
      obtain ⟨next, hfirst, h⟩ := Sequence.bind_eq_ok_iff.1 h
      obtain ⟨hy, hnodup⟩ := List.nodup_cons.1 hnodup
      cases i with
      | zero =>
        obtain rfl := Option.some.inj hx
        have hkept : y.get (put s) = y.get (put next) := by
          refine view_storeItems (fun s => y.get (put s)) (fun g hg node s s' hstore => ?_) h
          obtain ⟨z, hz, hstands⟩ := exists_related hrest hg
          exact hstands.kept hstore fun hyz => hy (hyz ▸ hz)
        rw [hkept, List.getElem?_cons_zero, Option.bind_some, hf.stored hfirst, Option.getD_some]
      | succ i =>
        have hne : x ≠ y := fun hxy => hy (hxy ▸ List.mem_of_getElem? hx)
        rw [ih hnodup hx h, hf.kept hfirst hne, List.getElem?_cons_succ]

theorem standsFor_of_name (hkeys : (xs.map Setting.key).Nodup) (hx : x ∈ xs) {f : Field σ}
    (hf : f ∈ fields) (hname : f.name = x.key) : StandsFor put f x := by
  obtain ⟨y, hy, hstands⟩ := exists_related hlaw hf
  obtain rfl := List.inj_on_of_nodup_map hkeys hy hx (hstands.name.symm.trans hname)
  exact hstands

/-- Entries are stored when each of those that a field stands for is of its kind. -/
theorem exists_storeEntries_iff_content (hkeys : (xs.map Setting.key).Nodup) :
    (∃ s, storeEntries fields start entries = .ok s) ↔
      ∀ e ∈ entries, ∀ x ∈ xs, x.key = e.1.text → (x.content? e.2.item.data).isSome := by
  have haccepts (e : Toml.Key × Node) (f : Field σ) (hf : f ∈ fields) (hname : f.name = e.1.text)
      (s : σ) : (∃ s', f.store (keyed e.1 e.2) s = .ok s') ↔
        ∀ x ∈ xs, x.key = e.1.text → (x.content? e.2.item.data).isSome := by
    obtain ⟨y, hy, hstands⟩ := exists_related hlaw hf
    rw [hstands.accepts, item_keyed]
    constructor
    · intro hcontent x hx hkey
      obtain rfl := List.inj_on_of_nodup_map hkeys hx hy
        (hkey.trans (hname.symm.trans hstands.name))
      exact hcontent
    · exact fun hall => hall y hy (hstands.name.symm.trans hname)
  rw [exists_storeEntries_iff fun e _ => haccepts e, names_eq_keys hlaw]
  refine forall₂_congr fun e _ => ⟨fun h x hx hkey => ?_, fun h _ => h⟩
  exact h (hkey ▸ List.mem_map_of_mem hx) x hx hkey

/-- Storing entries leaves in a setting what the entry under its name is. -/
theorem get_storeEntries (hkeys : (xs.map Setting.key).Nodup) (hx : x ∈ xs)
    (hdistinct : entries.Distinct) (h : storeEntries fields start entries = .ok s) :
    x.get (put s) = ((entries.data.lookup x.key).bind x.content?).getD (x.get (put start)) := by
  have hfield : ∃ f ∈ fields, f.name = x.key := by
    rw [← List.mem_map, names_eq_keys hlaw]
    exact List.mem_map_of_mem hx
  have hview := view_storeEntries (fun s => x.get (put s)) (fun v => x.content? v.data) x.key hfield
    ?_ ?_ rfl h
  · rw [← hdistinct.last?_data, Option.bind_map]
    exact hview
  · intro f hf hname e he s s' hstore
    have hstored := (standsFor_of_name hlaw hkeys hx hf hname).stored hstore
    rw [item_keyed] at hstored
    rw [hstored, Option.getD_some]
  · intro f hf hname node s s' hstore
    obtain ⟨y, -, hstands⟩ := exists_related hlaw hf
    refine hstands.kept hstore fun hxy => hname ?_
    rw [hstands.name, hxy]

end Field

namespace Field

open Settings (Setting Part)

variable {σ : Type} {fields : List (Field σ)} {start s : σ} {node : Node} {put : σ → Settings}
  {expected : String} {p : Part} {x : Setting}
  (hlaw : List.Forall₂ (StandsFor put) fields p.settings) (hdistinct : node.item.Distinct)

include hlaw hdistinct

theorem exists_storeSection_iff :
    (∃ s, storeSection fields start expected node = .ok s) ↔ p.Accepts node.item.data := by
  have hitems (items : List Node) : (∃ s, storeItems fields start items = .ok s) ↔
      p.Accepts (.array (items.map (·.item.data))) := by
    simp only [exists_storeItems_iff hlaw, Prod.forall, Part.mem_zip_iff, Part.Accepts,
      Setting.field?, Data.IsSection, true_and, List.getElem?_map, Option.map_eq_some_iff]
    constructor
    · rintro h x hx d ⟨node, hnode, rfl⟩
      exact h x node ⟨hx, hnode⟩
    · rintro h x node ⟨hx, hnode⟩
      exact h x hx _ ⟨node, hnode, rfl⟩
  obtain ⟨span, item⟩ := node
  cases item
  case table kind entries =>
    replace hdistinct := Toml.Value.distinct_table_iff.1 hdistinct
    rw [storeSection, exists_storeEntries_iff_content hlaw Part.nodup_keys]
    simp only [Toml.Value.data_table, Part.Accepts, Data.IsSection, true_and, Setting.field?,
      Toml.Mapping.lookup_eq_some_iff hdistinct.nodup_data]
    constructor
    · rintro h x rfl d hd
      obtain ⟨e, he, heq⟩ := List.mem_map.1 hd
      obtain ⟨hkey, rfl⟩ := Prod.mk.inj heq
      exact h e he x x.mem_settings hkey.symm
    · intro h e he x hx hkey
      exact h x (p.part_of_mem hx) _ (hkey ▸ List.mem_map_of_mem he)
  case array items => simpa [storeSection] using hitems items
  case tables rows =>
    simpa [storeSection, Function.comp_def] using
      hitems (rows.map fun row => ⟨row.1, .table .header row.2⟩)
  case dateTime => simp [storeSection, Part.Accepts, Toml.Value.data, Data.IsSection, Setting.field?]
  all_goals simp [storeSection, Part.Accepts, Toml.Value.data, Data.IsSection]

theorem get_storeSection (hx : x.part = p) (h : storeSection fields start expected node = .ok s) :
    x.get (put s) =
      ((x.field? node.item.data).bind x.content?).getD (x.get (put start)) := by
  have hitems {items : List Node} (h : storeItems fields start items = .ok s) :
      x.get (put s) = ((x.field? (.array (items.map (·.item.data)))).bind x.content?).getD
        (x.get (put start)) := by
    rw [get_storeItems hlaw Part.nodup_settings (hx ▸ x.getElem?_settings) h, Setting.field?,
      List.getElem?_map, Option.bind_map]
    rfl
  obtain ⟨span, item⟩ := node
  cases item
  case table kind entries =>
    rw [Toml.Value.data_table]
    exact get_storeEntries hlaw Part.nodup_keys (hx ▸ x.mem_settings)
      (Toml.Value.distinct_table_iff.1 hdistinct) h
  case array items => simpa [storeSection] using hitems h
  case tables rows => simpa [storeSection, Function.comp_def] using hitems h
  case dateTime =>
    obtain rfl := Except.ok.inj h
    rfl
  all_goals cases h

end Field

namespace Settings

variable {s s' : Settings} {root : Entries}

theorem standsFor_layout : List.Forall₂ (Field.StandsFor fun l => { layout := l }) LayoutSection.fields
    Part.layout.settings := by
  refine .cons (Field.standsFor (x := .configDir) Field.text_eq_ok_iff (fun _ _ => rfl) ?_)
    (.cons (Field.standsFor (x := .generatedDir) Field.text_eq_ok_iff (fun _ _ => rfl) ?_)
      (.cons (Field.standsFor (x := .outputDir) Field.text_eq_ok_iff (fun _ _ => rfl) ?_) .nil))
  all_goals
    intro a s y hy
    cases y <;> first | rfl | exact absurd rfl hy

theorem standsFor_builder : List.Forall₂ (Field.StandsFor fun b => { builder := b }) BuilderSection.fields
    Part.builder.settings := by
  refine .cons (Field.standsFor (x := .builderProgram) Field.text_eq_ok_iff (fun _ _ => rfl) ?_)
    (.cons (Field.standsFor (x := .prefixArgs) Field.texts_eq_ok_iff (fun _ _ => rfl) ?_)
      (.cons (Field.standsFor (x := .format) Field.text_eq_ok_iff (fun _ _ => rfl) ?_)
        (.cons (Field.standsFor (x := .extraArgs) Field.texts_eq_ok_iff (fun _ _ => rfl) ?_) .nil)))
  all_goals
    intro a s y hy
    cases y <;> first | rfl | exact absurd rfl hy

theorem standsFor_vcs : List.Forall₂ (Field.StandsFor fun r => { vcs := r }) RepositorySection.fields
    Part.vcs.settings := by
  refine .cons (Field.standsFor (x := .repositoryProgram) Field.text_eq_ok_iff (fun _ _ => rfl) ?_)
    .nil
  intro a s y hy
  cases y <;> first | rfl | exact absurd rfl hy

/-- The field takes a section for one part and has no part in the others. -/
structure Part.Has (p : Part) (f : Field Settings) : Prop where
  name : f.name = p.name
  accepts : ∀ node s, node.item.Distinct →
    ((∃ s', f.store node s = .ok s') ↔ p.Accepts node.item.data)
  stored : ∀ {node s s'} {x : Setting}, node.item.Distinct → f.store node s = .ok s' → x.part = p →
    x.get s' = ((x.field? node.item.data).bind x.content?).getD (x.get {})
  kept : ∀ {node s s'} {x : Setting}, f.store node s = .ok s' → x.part ≠ p → x.get s' = x.get s

theorem Part.has {σ : Type} {fields : List (Field σ)} {start : σ} {expected : String} {p : Part}
    {put : σ → Settings} {set : σ → Settings → Settings}
    (hlaw : List.Forall₂ (Field.StandsFor put) fields p.settings) (hstart : put start = {})
    (hput : ∀ sec s (x : Setting), x.part = p → x.get (set sec s) = x.get (put sec))
    (hother : ∀ sec s (x : Setting), x.part ≠ p → x.get (set sec s) = x.get s) :
    p.Has ⟨p.name, fun v s => return set (← Field.storeSection fields start expected v) s⟩ := by
  refine ⟨rfl, fun node s hdistinct => ?_, fun {node s s' x} hdistinct h hx => ?_,
    fun {node s s' x} h hx => ?_⟩
  · exact Sequence.exists_bind_return_iff.trans (Field.exists_storeSection_iff hlaw hdistinct)
  · obtain ⟨sec, hsec, rfl⟩ := Sequence.bind_return_eq_ok_iff.1 h
    rw [hput sec s x hx, Field.get_storeSection hlaw hdistinct hx hsec, hstart]
  · obtain ⟨sec, -, rfl⟩ := Sequence.bind_return_eq_ok_iff.1 h
    exact hother sec s x hx

theorem has_fields :
    List.Forall₂ (fun f (p : Part) => p.Has f) fields [.layout, .builder, .vcs] := by
  refine .cons (Part.has (p := .layout) standsFor_layout rfl ?_ ?_)
    (.cons (Part.has (p := .builder) standsFor_builder rfl ?_ ?_)
      (.cons (Part.has (p := .vcs) standsFor_vcs rfl ?_ ?_) .nil))
  all_goals
    intro sec s x hx
    cases x <;> first | rfl | cases hx | exact absurd rfl hx

theorem Part.exists_field (p : Part) : ∃ f ∈ fields, p.Has f :=
  exists_related has_fields.flip (by cases p <;> decide)

/-- A document describes settings when it is readable. -/
theorem exists_ofDocument_iff (hdistinct : root.Distinct) :
    (∃ s, ofDocument root = .ok s) ↔ Readable root.data := by
  have haccepts (e : Toml.Key × Node) (he : e ∈ root) (f : Field Settings) (hf : f ∈ fields)
      (hname : f.name = e.1.text) (s : Settings) :
      (∃ s', f.store (Field.keyed e.1 e.2) s = .ok s') ↔
        ∀ p : Part, p.name = e.1.text → p.Accepts e.2.item.data := by
    obtain ⟨p, -, hp⟩ := exists_related has_fields hf
    have hnode : (Field.keyed e.1 e.2).item.Distinct := hdistinct.values e he
    rw [hp.accepts _ s hnode, Field.item_keyed]
    constructor
    · intro haccepts q hq
      obtain rfl := Part.name_injective (hq.trans (hname.symm.trans hp.name))
      exact haccepts
    · exact fun hall => hall p (hp.name.symm.trans hname)
  rw [ofDocument, Field.exists_storeEntries_iff haccepts, readable_iff]
  simp only [Toml.Mapping.lookup_eq_some_iff hdistinct.nodup_data]
  constructor
  · intro h p d hd
    obtain ⟨e, he, heq⟩ := List.mem_map.1 hd
    obtain ⟨hkey, rfl⟩ := Prod.mk.inj heq
    obtain ⟨f, hf, hp⟩ := p.exists_field
    have hmem : e.1.text ∈ fields.map Field.name :=
      List.mem_map.2 ⟨f, hf, hp.name.trans hkey.symm⟩
    exact h e he hmem p hkey.symm
  · intro h e he _ p hp
    exact h p _ (hp ▸ List.mem_map_of_mem he)

theorem get_ofDocument (hdistinct : root.Distinct) (h : ofDocument root = .ok s) (x : Setting) :
    x.get s = ((x.mention? root.data).bind x.content?).getD (x.get {}) := by
  obtain ⟨g, hg, hgp⟩ := x.part.exists_field
  have hview := Field.view_storeEntries x.get (fun v => (x.field? v.data).bind x.content?)
    x.part.name ⟨g, hg, hgp.name⟩ ?_ ?_ rfl h
  · rw [Setting.mention?, ← hdistinct.last?_data, Option.bind_map, Option.bind_assoc]
    exact hview
  · intro f hf hname e he s s' hstore
    obtain ⟨p, -, hp⟩ := exists_related has_fields hf
    have hpart : x.part = p := Part.name_injective (hname.symm.trans hp.name)
    have hnode : (Field.keyed e.1 e.2).item.Distinct := hdistinct.values e he
    have hstored := hp.stored hnode hstore hpart
    rwa [Field.item_keyed] at hstored
  · intro f hf hname node s s' hstore
    obtain ⟨p, -, hp⟩ := exists_related has_fields hf
    refine hp.kept hstore fun hpart => hname ?_
    rw [hp.name, hpart]

end Settings
end DocBuild
