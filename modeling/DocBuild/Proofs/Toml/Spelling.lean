import DocBuild.Proofs.Toml.Outline

namespace DocBuild.Toml

/-- The same value in the table that a key leads to. -/
def Given.under (key : String) (g : Given) : Given :=
  { g with path := key :: g.path }

/-- The first key of a header. -/
def Headed.head (s : Headed) : String :=
  s.path.headD s.key

namespace Mapping

variable {m m' inner : Mapping} {key : String} {body : List Given} {s : Headed}

/-- Mappings that say the same for every key. -/
def Same (m m' : Mapping) : Prop :=
  ∀ k, m.lookup k = m'.lookup k

/-- A change behind a key depends on what the key says and touches nothing else. So its effect is that
    of the same change on a mapping that has no other key. -/
theorem exists_lookup_alter (change : Mapping → Mapping) (k : String) (path : List String) :
    ∃ effect : Option Data → Option Data, ∀ (m : Mapping) k',
      (m.alter change (k :: path)).lookup k' = if k' = k then effect (m.lookup k) else m.lookup k' := by
  refine ⟨fun old => (alter change (k :: path) (old.toList.map (k, ·))).lookup k, fun m k' => ?_⟩
  have hkept : m.lookup k' = if k' = k then m.lookup k else m.lookup k' := by
    split
    · next hk => rw [hk]
    · rfl
  cases hget : m.lookup k with
  | none => simp [alter, hget, lookup_concat hget]
  | some d =>
    rw [hget] at hkept
    cases d with
    | table inner => simp [alter, hget, lookup_update]
    | array rows =>
      cases hlast : rows.getLast? with
      | none => simpa [alter, hget, hlast, lookup_cons] using hkept
      | some last =>
        cases last with
        | table row => simp [alter, hget, hlast, lookup_update]
        | _ => simpa [alter, hget, hlast, lookup_cons] using hkept
    | _ => simpa [alter, hget, lookup_cons] using hkept

/-- A section depends on what its first key says and touches nothing else. -/
theorem exists_lookup_place (s : Headed) : ∃ effect : Option Data → Option Data, ∀ (m : Mapping) k,
    (m.place s).lookup k = if k = s.head then effect (m.lookup s.head) else m.lookup k := by
  obtain ⟨repeated, path, key, body⟩ := s
  cases path with
  | cons k path => exact exists_lookup_alter _ k path
  | nil =>
    refine ⟨fun old => (place (old.toList.map (key, ·)) ⟨repeated, [], key, body⟩).lookup key,
      fun m k => ?_⟩
    rw [Headed.head, List.headD_nil]
    cases hget : m.lookup key with
    | none => cases repeated <;> simp [place, alter, hget, lookup_concat hget]
    | some d =>
      by_cases hk : k = key
      · subst hk
        cases repeated <;> cases d <;>
          simp [place, alter, hget, List.lookup_append, lookup_update, lookup_without]
      · cases repeated <;> cases d <;>
          simp [place, alter, hget, List.lookup_append, lookup_cons, lookup_update, lookup_without, hk]

theorem Same.place (h : m.Same m') : (m.place s).Same (m'.place s) := by
  obtain ⟨effect, hplace⟩ := exists_lookup_place s
  intro k
  rw [hplace, hplace, h, h]

theorem Same.placeAll {ss : List Headed} (h : m.Same m') :
    Same (ss.foldl Mapping.place m) (ss.foldl Mapping.place m') := by
  induction ss generalizing m m' with
  | nil => exact h
  | cons s ss ih => exact ih h.place

theorem lookup_place_of_ne (hkey : s.head ≠ key) : (m.place s).lookup key = m.lookup key := by
  obtain ⟨effect, hplace⟩ := exists_lookup_place s
  rw [hplace, if_neg hkey.symm]

/-- A section is placed no matter whether another key is given before or after it. -/
theorem same_place_concat {d : Data} (hnew : m.lookup key = none) (hkey : s.head ≠ key) :
    Same (place (m ++ [(key, d)]) s) (m.place s ++ [(key, d)]) := by
  obtain ⟨effect, hplace⟩ := exists_lookup_place s
  have hnew' : (m.place s).lookup key = none := (lookup_place_of_ne hkey).trans hnew
  intro k
  rw [hplace, lookup_concat hnew', lookup_concat hnew, lookup_concat hnew, hplace, if_neg hkey]
  by_cases hk : k = key
  · rw [if_pos hk, if_pos hk, if_neg fun h => hkey (h.symm.trans hk)]
  · rw [if_neg hk, if_neg hk]

theorem placeAll_concat {d : Data} {ss : List Headed} (hnew : m.lookup key = none)
    (hkeys : ∀ s ∈ ss, s.head ≠ key) :
    (ss.foldl place m).lookup key = none ∧
      Same (ss.foldl place (m ++ [(key, d)])) (ss.foldl place m ++ [(key, d)]) := by
  induction ss generalizing m with
  | nil => exact ⟨hnew, fun _ => rfl⟩
  | cons s ss ih =>
    obtain ⟨hkey, hkeys⟩ := List.forall_mem_cons.1 hkeys
    obtain ⟨hfree, hsame⟩ := @ih (m.place s) ((lookup_place_of_ne hkey).trans hnew) hkeys
    refine ⟨hfree, fun k => ?_⟩
    rw [List.foldl_cons, List.foldl_cons, ← hsame k]
    exact (same_place_concat hnew hkey).placeAll k

end Mapping

/-- The first outline has a header for a table that nothing before it is about. The second gives this
    table at the top, in braces or with dotted keys. -/
inductive Outline.Respelt : Outline → Outline → Prop where
  | braces {top body : List Given} {before after : List Headed} {key : String}
    (hnew : (Mapping.giveAll [] top).lookup key = none) (hbefore : ∀ s ∈ before, s.head ≠ key) :
    Respelt ⟨top, before ++ ⟨false, [], key, body⟩ :: after⟩
      ⟨top ++ [⟨[], key, .table (Mapping.giveAll [] body)⟩], before ++ after⟩
  | dotted {top body : List Given} {before after : List Headed} {key : String}
    (hnew : (Mapping.giveAll [] top).lookup key = none) (hbefore : ∀ s ∈ before, s.head ≠ key)
    (hbody : body ≠ []) :
    Respelt ⟨top, before ++ ⟨false, [], key, body⟩ :: after⟩
      ⟨top ++ body.map (Given.under key), before ++ after⟩

namespace Mapping

variable {m inner : Mapping} {key : String} {body : List Given}

theorem update_concat {d : Data} {change : Data → Data} (h : m.lookup key = none) :
    update key change (m ++ [(key, d)]) = m ++ [(key, change d)] := by
  have hothers : ∀ e ∈ m, (if e.1 = key then (e.1, change e.2) else e) = e := by
    intro e he
    have hne := List.lookup_eq_none_iff.1 h e he
    rw [if_neg fun heq => absurd heq.symm (bne_iff_ne.1 hne)]
  rw [update, List.map_append, List.map_congr_left hothers, List.map_id']
  simp

theorem place_of_new (h : m.lookup key = none) :
    m.place ⟨false, [], key, body⟩ = m ++ [(key, .table (giveAll [] body))] := by
  simp [place, alter, h]

theorem giveAll_append {gs gs' : List Given} : m.giveAll (gs ++ gs') = (m.giveAll gs).giveAll gs' :=
  List.foldl_append

theorem giveAll_cons {g : Given} {gs : List Given} : m.giveAll (g :: gs) = (m.give g).giveAll gs := rfl

/-- Dotted keys fill the table that they lead to. -/
theorem giveAll_under (h : m.lookup key = none) :
    giveAll (m ++ [(key, .table inner)]) (body.map (Given.under key)) =
      m ++ [(key, .table (inner.giveAll body))] := by
  induction body generalizing inner with
  | nil => rfl
  | cons g body ih =>
    have hfirst : give (m ++ [(key, .table inner)]) (g.under key) =
        m ++ [(key, .table (inner.give g))] := by
      rw [give, Given.under, alter, lookup_concat h, if_pos rfl]
      exact update_concat h
    rw [List.map_cons, giveAll_cons, hfirst, ih, giveAll_cons]

/-- The first dotted key creates the table. -/
theorem giveAll_under_of_new (h : m.lookup key = none) (hbody : body ≠ []) :
    m.giveAll (body.map (Given.under key)) = m ++ [(key, .table (giveAll [] body))] := by
  obtain ⟨g, body, rfl⟩ := List.exists_cons_of_ne_nil hbody
  have hfirst : m.give (g.under key) = m ++ [(key, .table (give [] g))] := by
    rw [give, Given.under, alter, h]
    rfl
  rw [List.map_cons, giveAll_cons, hfirst, giveAll_under h, giveAll_cons]

end Mapping

/-- All three spellings say the same for every key. Below its header or at the top, the table is the
    last thing in what the sections before it left. -/
theorem Outline.Respelt.same {o o' : Outline} (h : o.Respelt o') : o.contents.Same o'.contents := by
  have hmoved {m : Mapping} {before after : List Headed} {key : String} {body : List Given}
      (hnew : m.lookup key = none) (hbefore : ∀ s ∈ before, s.head ≠ key) :
      Mapping.Same ((before ++ ⟨false, [], key, body⟩ :: after).foldl Mapping.place m)
        ((before ++ after).foldl Mapping.place
          (m ++ [(key, .table (Mapping.giveAll [] body))])) := by
    obtain ⟨hfree, hsame⟩ := Mapping.placeAll_concat hnew hbefore
    rw [List.foldl_append, List.foldl_append, List.foldl_cons, Mapping.place_of_new hfree]
    exact fun k => (hsame.placeAll k).symm
  cases h with
  | braces hnew hbefore =>
    rw [contents, contents, Mapping.giveAll_append]
    exact hmoved hnew hbefore
  | dotted hnew hbefore hbody =>
    rw [contents, contents, Mapping.giveAll_append, Mapping.giveAll_under_of_new hnew hbody]
    exact hmoved hnew hbefore

end DocBuild.Toml
