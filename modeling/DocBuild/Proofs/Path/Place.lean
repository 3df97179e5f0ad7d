import DocBuild.FileTree.Lookup

namespace DocBuild

namespace Bytes

/-- A separator between two byte strings separates their pieces. -/
theorem splitOn_append_cons (sep : UInt8) (a b : Bytes) :
    splitOn sep (a ++ sep :: b) = splitOn sep a ++ splitOn sep b := by
  induction a with
  | nil => simp [splitOn]
  | cons x a ih =>
    simp only [List.cons_append, splitOn]
    split
    · rw [ih, List.cons_append]
    · rw [ih]
      cases ha : splitOn sep a with
      | nil => exact absurd ha (splitOn_ne_nil sep a)
      | cons piece pieces => simp

/-- Between empty pieces there is nothing but separators. -/
theorem eq_of_mem_intercalate {sep b : UInt8} {pieces : List Bytes}
    (hempty : ∀ piece ∈ pieces, piece = []) (h : b ∈ intercalate sep pieces) : b = sep := by
  fun_induction intercalate sep pieces with
  | case1 => cases h
  | case2 piece =>
    rw [hempty piece List.mem_cons_self] at h
    cases h
  | case3 piece pieces _ ih =>
    rw [hempty piece List.mem_cons_self, List.nil_append, List.mem_cons] at h
    rcases h with rfl | h
    · rfl
    · exact ih (fun piece hpiece => hempty piece (List.mem_cons_of_mem _ hpiece)) h

end Bytes

namespace Path

open Bytes (slash dot)

/-- The names in a path, `..` included. -/
def names (p : Path) : List Name :=
  p.segments.filter fun segment => !isBlank segment

/-- Where a step leads from a directory when no link is met. -/
def advance (here : Location) (step : Bytes) : Location :=
  if staysHere step then here else if goesUp step then here.tail else step :: here

/-- Where a path leads when no link is met, whether or not anything is there. -/
def place (p : Path) (cwd : Location) : Location :=
  p.segments.foldl advance (p.origin cwd)

theorem isBlank_eq_staysHere (segment : Bytes) : isBlank segment = staysHere segment := rfl

@[simp] theorem advance_nil (here : Location) : advance here [] = here := rfl

/-- Every path that is not empty has steps to take. -/
theorem steps_ne_nil {p : Path} (hp : p ≠ []) : p.steps ≠ [] := by
  unfold steps
  split
  · exact List.concat_ne_nil _ _
  next hslash =>
  intro hnone
  have hempty : ∀ segment ∈ p.segments, segment = [] := by
    simpa using List.filter_eq_nil_iff.1 hnone
  obtain ⟨b, hb⟩ := Option.ne_none_iff_exists'.1 (mt List.getLast?_eq_none_iff.1 hp)
  have hmem : b ∈ Bytes.intercalate slash p.segments := by
    rw [segments, Bytes.intercalate_splitOn]
    exact List.mem_of_getLast? hb
  rw [Bytes.eq_of_mem_intercalate hempty hmem] at hb
  exact hslash hb

/-- A non-empty path is its spelling before a final slash, if it has one, and perhaps that slash. -/
theorem segments_join {p q : Path} (hp : p ≠ []) (hq : q.isAbsolute = false) :
    ∃ front back, front ≠ [] ∧ (back = [] ∨ back = [[]]) ∧ p.segments = front ++ back ∧
      (p.getLast? = some slash ↔ back = [[]]) ∧ (p.join q).segments = front ++ q.segments := by
  by_cases hlast : p.getLast? = some slash
  · obtain ⟨body, rfl⟩ := List.getLast?_eq_some_iff.1 hlast
    refine ⟨segments body, [[]], Bytes.splitOn_ne_nil slash body, .inr rfl, ?_, by simp, ?_⟩
    · exact Bytes.splitOn_append_cons slash body []
    · have hjoin : Path.join (body ++ [slash]) q = body ++ slash :: q := by
        simp [join, hq]
      rw [hjoin]
      exact Bytes.splitOn_append_cons slash body q
  · refine ⟨p.segments, [], Bytes.splitOn_ne_nil slash p, .inl rfl, by simp, by simp [hlast], ?_⟩
    have hjoin : Path.join p q = p ++ slash :: q := by
      simp [join, hq, hp, hlast]
    rw [hjoin]
    exact Bytes.splitOn_append_cons slash p q

theorem join_ne_nil {p : Path} (hp : p ≠ []) (q : Path) : p.join q ≠ [] := by
  unfold join
  split
  · next h => intro hq; simp [hq, isAbsolute] at h
  · split <;> simp [hp]

theorem isAbsolute_join {p q : Path} (hp : p ≠ []) (hq : q.isAbsolute = false) :
    (p.join q).isAbsolute = p.isAbsolute := by
  obtain ⟨b, p, rfl⟩ := List.exists_cons_of_ne_nil hp
  simp only [join, hq, Bool.false_eq_true, if_false]
  split <;> simp [isAbsolute]

theorem origin_join {p q : Path} (hp : p ≠ []) (hq : q.isAbsolute = false) (cwd : Location) :
    (p.join q).origin cwd = p.origin cwd := by
  simp only [origin, isAbsolute_join hp hq]

/-- Only a path that begins here keeps a `.`, so a joined path keeps none of its own. -/
theorem components_join {p q : Path} (hp : p ≠ []) (hq : q.isAbsolute = false) :
    (p.join q).components = p.components ++ q.segments.filterMap component? := by
  obtain ⟨front, back, hfront, hback, hsegments, -, hjoin⟩ := segments_join hp hq
  have hbegin : (p.join q).beginsHere = p.beginsHere := by
    obtain ⟨piece, pieces, rfl⟩ := List.exists_cons_of_ne_nil hfront
    simp [beginsHere, hjoin, hsegments]
  have hnone : back.filterMap component? = [] := by
    rcases hback with rfl | rfl <;> rfl
  rw [components, components, isAbsolute_join hp hq, hbegin, hjoin, hsegments,
    List.filterMap_append, List.filterMap_append, hnone, List.append_nil, List.append_assoc]

theorem nil_join {q : Path} (hq : q.isAbsolute = false) : join [] q = q := by
  simp [join, hq]

theorem isAbsolute_join_iff {p q : Path} :
    (p.join q).isAbsolute = true ↔ q.isAbsolute = true ∨ p.isAbsolute = true := by
  cases hq : q.isAbsolute with
  | true => simp [join, hq]
  | false =>
    by_cases hp : p = []
    · rw [hp, nil_join hq, hq]
      simp [isAbsolute]
    · simp [isAbsolute_join hp hq]

/-- Joining paths brings in no `..` of its own. -/
theorem up_mem_segments_join {p q : Path} (hq : q.isAbsolute = false) :
    [dot, dot] ∈ (p.join q).segments ↔ [dot, dot] ∈ p.segments ∨ [dot, dot] ∈ q.segments := by
  by_cases hp : p = []
  · subst hp
    rw [nil_join hq]
    simp [segments, Bytes.splitOn]
  obtain ⟨front, back, -, hback, hsegments, -, hjoin⟩ := segments_join hp hq
  have hnone : [dot, dot] ∉ back := by
    rcases hback with rfl | rfl <;> simp
  rw [hjoin, hsegments, List.mem_append, List.mem_append, or_iff_left hnone]

/-- A joined path leads from where its first part leads to wherever the second part goes. -/
theorem place_join {p q : Path} (hq : q.isAbsolute = false) (cwd : Location) :
    (p.join q).place cwd = q.segments.foldl advance (p.place cwd) := by
  by_cases hp : p = []
  · subst hp
    rw [nil_join hq, place, origin, hq]
    rfl
  obtain ⟨front, back, -, hback, hsegments, -, hjoin⟩ := segments_join hp hq
  have hstay : ∀ l, back.foldl advance l = l := by
    rcases hback with rfl | rfl <;> intro l <;> rfl
  rw [place, place, origin_join hp hq, hjoin, hsegments, List.foldl_append, List.foldl_append, hstay]

/-- The places that a path passes when no link is met. -/
def passes (p : Path) (cwd : Location) (v : Location) : Prop :=
  ∃ front, front <+: p.segments ∧ v = front.foldl advance (p.origin cwd)

theorem foldl_advance_filter (segments : List Bytes) (here : Location) :
    (segments.filter (· ≠ [])).foldl advance here = segments.foldl advance here := by
  induction segments generalizing here with
  | nil => rfl
  | cons segment segments ih =>
    by_cases hempty : segment = []
    · rw [List.filter_cons_of_neg (by simp [hempty]), List.foldl_cons, hempty, advance_nil, ih]
    · rw [List.filter_cons_of_pos (by simp [hempty]), List.foldl_cons, List.foldl_cons, ih]

/-- The steps of a lookup lead where the segments lead. -/
theorem foldl_steps (p : Path) (here : Location) :
    p.steps.foldl advance here = p.segments.foldl advance here := by
  rw [← foldl_advance_filter p.segments, steps]
  split
  · rw [List.foldl_append]
    rfl
  · rfl

/-- The steps of a lookup lead past the places that the segments lead past. -/
theorem passes_iff_steps {p : Path} {cwd v : Location} :
    p.passes cwd v ↔ ∃ front, front <+: p.steps ∧ v = front.foldl advance (p.origin cwd) := by
  constructor
  · rintro ⟨front, hfront, rfl⟩
    refine ⟨front.filter (· ≠ []), ?_, (foldl_advance_filter front _).symm⟩
    have hnamed := hfront.filter (· ≠ [])
    unfold steps
    dsimp only
    split
    · exact hnamed.trans (List.prefix_append _ _)
    · exact hnamed
  · rintro ⟨front, hfront, rfl⟩
    by_cases hwhole : front = p.steps
    · exact ⟨p.segments, List.prefix_refl _, hwhole ▸ foldl_steps p _⟩
    · have hnamed : front <+: p.segments.filter (· ≠ []) := by
        unfold steps at hfront hwhole
        dsimp only at hfront hwhole
        split at hfront
        · next hslash =>
          rw [if_pos hslash] at hwhole
          exact (List.prefix_concat_iff.1 hfront).resolve_left hwhole
        · exact hfront
      obtain ⟨front, hprefix, rfl⟩ := List.prefix_filter_iff.1 hnamed
      exact ⟨front, hprefix, foldl_advance_filter front _⟩

theorem prefix_append_iff {front body back : List Bytes} :
    front <+: body ++ back ↔ front <+: body ∨ ∃ rest, rest <+: back ∧ front = body ++ rest := by
  constructor
  · intro h
    rcases List.prefix_or_prefix_of_prefix h (List.prefix_append body back) with hshort | hlong
    · exact .inl hshort
    · obtain ⟨rest, rfl⟩ := hlong
      exact .inr ⟨rest, (List.prefix_append_right_inj body).1 h, rfl⟩
  · rintro (h | ⟨rest, hrest, rfl⟩)
    · exact h.trans (List.prefix_append body back)
    · exact (List.prefix_append_right_inj body).2 hrest

/-- A joined path passes what its first part passes and then goes on from there. -/
theorem passes_join {p q : Path} (hq : q.isAbsolute = false) {cwd v : Location} :
    (p.join q).passes cwd v ↔
      p.passes cwd v ∨ ∃ front, front <+: q.segments ∧ v = front.foldl advance (p.place cwd) := by
  by_cases hp : p = []
  · subst hp
    have hstart : passes [] cwd v → ∃ front, front <+: q.segments ∧
        v = front.foldl advance (place [] cwd) := by
      rintro ⟨front, hfront, rfl⟩
      have hsegments : segments [] = [[]] := rfl
      rw [hsegments, List.prefix_cons_iff] at hfront
      rcases hfront with rfl | ⟨rest, rfl, hrest⟩
      · exact ⟨[], List.nil_prefix, rfl⟩
      · rw [List.prefix_nil.1 hrest]
        exact ⟨[], List.nil_prefix, rfl⟩
    rw [nil_join hq, or_iff_right_of_imp hstart, passes, origin, hq]
    rfl
  obtain ⟨body, back, -, hback, hsegments, -, hjoin⟩ := segments_join hp hq
  have hstay : ∀ rest, rest <+: back → ∀ l, rest.foldl advance l = l := by
    intro rest hrest l
    rcases hback with rfl | rfl
    · rw [List.prefix_nil.1 hrest]
      rfl
    · rcases List.prefix_cons_iff.1 hrest with rfl | ⟨tail, rfl, htail⟩
      · rfl
      · rw [List.prefix_nil.1 htail]
        rfl
  have hplace : p.place cwd = body.foldl advance (p.origin cwd) := by
    rw [place, hsegments, List.foldl_append, hstay back (List.prefix_refl back)]
  have hpasses : p.passes cwd v ↔ ∃ front, front <+: body ∧ v = front.foldl advance (p.origin cwd) := by
    unfold passes
    rw [hsegments]
    constructor
    · rintro ⟨front, hfront, rfl⟩
      rcases prefix_append_iff.1 hfront with hbody | ⟨rest, hrest, rfl⟩
      · exact ⟨front, hbody, rfl⟩
      · exact ⟨body, List.prefix_refl body, by rw [List.foldl_append, hstay rest hrest]⟩
    · rintro ⟨front, hfront, rfl⟩
      exact ⟨front, hfront.trans (List.prefix_append body back), rfl⟩
  rw [hpasses, hplace, passes, hjoin, origin_join hp hq]
  constructor
  · rintro ⟨front, hfront, rfl⟩
    rcases prefix_append_iff.1 hfront with hbody | ⟨rest, hrest, rfl⟩
    · exact .inl ⟨front, hbody, rfl⟩
    · exact .inr ⟨rest, hrest, List.foldl_append⟩
  · rintro (⟨front, hfront, rfl⟩ | ⟨rest, hrest, rfl⟩)
    · exact ⟨front, prefix_append_iff.2 (.inl hfront), rfl⟩
    · exact ⟨body ++ rest, prefix_append_iff.2 (.inr ⟨rest, hrest, rfl⟩), List.foldl_append.symm⟩

/-- Locations below one directory lie in each other as their names begin one another. -/
theorem suffix_iff_names_prefix (names names' : List Name) (base : Location) :
    names.reverse ++ base <:+ names'.reverse ++ base ↔ names <+: names' := by
  rw [← List.reverse_prefix, List.reverse_append, List.reverse_append, List.reverse_reverse,
    List.reverse_reverse, List.prefix_append_right_inj]

/-- A relative path that names something below the directory it is joined to. -/
structure Inner (p : Path) : Prop where
  relative : p.isAbsolute = false
  descends : [dot, dot] ∉ p.segments
  named : p.names ≠ []

/-- Without `..`, the segments that count are the names. -/
theorem filterMap_component? {segments : List Bytes} (hdown : [dot, dot] ∉ segments) :
    segments.filterMap component? = (segments.filter fun s => !isBlank s).map .name := by
  induction segments with
  | nil => rfl
  | cons segment segments ih =>
    obtain ⟨hne, hdown⟩ := not_or.1 fun h => hdown (List.mem_cons.2 h)
    cases hblank : isBlank segment with
    | true =>
      have hnone : component? segment = none := by
        have hdropped : segment = [] ∨ segment = [dot] := by simpa [isBlank] using hblank
        rw [component?, if_pos hdropped]
      simp [hnone, hblank, ih hdown]
    | false =>
      have hname : component? segment = some (.name segment) := by
        have hkept : ¬(segment = [] ∨ segment = [dot]) := by simpa [isBlank] using hblank
        rw [component?, if_neg hkept, if_neg (Ne.symm hne)]
      simp [hname, hblank, ih hdown]

theorem foldl_advance {segments : List Bytes} (hdown : [dot, dot] ∉ segments) (here : Location) :
    segments.foldl advance here = (segments.filter fun s => !isBlank s).reverse ++ here := by
  induction segments generalizing here with
  | nil => rfl
  | cons segment segments ih =>
    obtain ⟨hne, hdown⟩ := not_or.1 fun h => hdown (List.mem_cons.2 h)
    cases hblank : staysHere segment with
    | true => simp [advance, isBlank_eq_staysHere, hblank, ih hdown]
    | false =>
      have hup : goesUp segment = false := by simp [goesUp, Ne.symm hne]
      simp [advance, isBlank_eq_staysHere, hblank, hup, ih hdown]

/-- Without `..` a path passes only what lies above the place it leads to. -/
theorem suffix_place_of_passes {p : Path} {cwd v : Location} (hdown : [dot, dot] ∉ p.segments)
    (h : p.passes cwd v) : v <:+ p.place cwd := by
  obtain ⟨front, ⟨back, hback⟩, rfl⟩ := h
  rw [← hback, List.mem_append, not_or] at hdown
  rw [place, ← hback, List.foldl_append, foldl_advance hdown.2]
  exact List.suffix_append _ _

/-- Joining an inner path goes down by its names. -/
theorem Inner.place_join {p q : Path} (hq : q.Inner) (cwd : Location) :
    (p.join q).place cwd = q.names.reverse ++ p.place cwd := by
  rw [Path.place_join hq.relative, foldl_advance hq.descends, names]

/-- Behind the directory it is joined to, an inner path passes what its names lead past. -/
theorem Inner.passes_join {p q : Path} (hq : q.Inner) {cwd v : Location} :
    (p.join q).passes cwd v ↔
      p.passes cwd v ∨ ∃ names, names <+: q.names ∧ v = names.reverse ++ p.place cwd := by
  rw [Path.passes_join hq.relative]
  refine or_congr_right ⟨?_, ?_⟩
  · rintro ⟨front, hfront, rfl⟩
    refine ⟨front.filter fun s => !isBlank s, hfront.filter _, ?_⟩
    exact foldl_advance (fun hup => hq.descends (hfront.subset hup)) _
  · rintro ⟨names, hnames, rfl⟩
    obtain ⟨front, hfront, rfl⟩ := List.prefix_filter_iff.1 hnames
    exact ⟨front, hfront, (foldl_advance (fun hup => hq.descends (hfront.subset hup)) _).symm⟩

theorem Inner.ne_nil {p : Path} (hp : p.Inner) : p ≠ [] := by
  rintro rfl
  exact hp.named rfl

theorem Inner.join_ne_nil {q : Path} (hq : q.Inner) (p : Path) : p.join q ≠ [] := by
  by_cases hp : p = []
  · rw [hp, nil_join hq.relative]
    exact hq.ne_nil
  · exact Path.join_ne_nil hp q

theorem Inner.join {p q : Path} (hp : p.Inner) (hq : q.Inner) : (p.join q).Inner := by
  obtain ⟨front, back, -, -, hsegments, -, hjoin⟩ := segments_join hp.ne_nil hq.relative
  refine ⟨?_, ?_, ?_⟩
  · rw [isAbsolute_join hp.ne_nil hq.relative, hp.relative]
  · have hdown := hp.descends
    rw [hsegments, List.mem_append, not_or] at hdown
    rw [hjoin, List.mem_append, not_or]
    exact ⟨hdown.1, hq.descends⟩
  · rw [Path.names, hjoin, List.filter_append]
    exact List.append_ne_nil_of_right_ne_nil _ hq.named

theorem Inner.names_join {p q : Path} (hp : p.Inner) (hq : q.Inner) :
    (p.join q).names = p.names ++ q.names := by
  obtain ⟨front, back, -, hback, hsegments, -, hjoin⟩ := segments_join hp.ne_nil hq.relative
  have hblank : back.filter (fun segment => !isBlank segment) = [] := by
    rcases hback with rfl | rfl <;> rfl
  simp only [names, hjoin, hsegments, List.filter_append, hblank, List.append_nil]

/-- Inner paths can be joined one by one or joined to each other first. -/
theorem join_assoc {p q r : Path} (hq : q.Inner) (hr : r.Inner) :
    (p.join q).join r = p.join (q.join r) := by
  have hlast : ∀ front : Path, (front ++ q).getLast? = q.getLast? := by
    obtain ⟨final, hfinal⟩ := Option.ne_none_iff_exists'.1 (mt List.getLast?_eq_none_iff.1 hq.ne_nil)
    intro front
    rw [List.getLast?_append, hfinal, Option.some_or]
  have hglue : ∀ front back : Path, back.isAbsolute = false → front.join back =
      front ++ ((if front = [] ∨ front.getLast? = some slash then [] else [slash]) ++ back) := by
    intro front back hback
    simp only [Path.join, hback, Bool.false_eq_true, if_false]
    split <;> simp
  rw [hglue _ _ hr.relative, hglue _ _ hq.relative, hglue _ _ (hq.join hr).relative,
    hglue _ _ hr.relative, ← List.append_assoc p, hlast]
  simp [hq.ne_nil]

theorem Inner.components_join {p q : Path} (hq : q.Inner) (hp : p ≠ []) :
    (p.join q).components = p.components ++ q.names.map .name := by
  rw [Path.components_join hp hq.relative, filterMap_component? hq.descends, names]

/-- The components of two inner paths joined to one directory compare like their names. -/
theorem startsWith_join_iff {p q r : Path} (hp : p ≠ []) (hq : q.Inner) (hr : r.Inner) :
    (p.join q).startsWith (p.join r) = true ↔ r.names <+: q.names := by
  rw [startsWith, List.isPrefixOf_iff_prefix, hq.components_join hp, hr.components_join hp,
    List.prefix_append_right_inj]
  exact List.prefix_map_iff_of_injective fun _ _ h => Component.name.inj h

end Path
end DocBuild
