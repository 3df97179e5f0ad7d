import DocBuild.Proofs.FileTree.Trail
import DocBuild.Proofs.Path.Place
import DocBuild.Proofs.Sequence

namespace DocBuild.FileTree

variable {s t : FileTree} {last : Last} {cwd l : Location} {p : Path} {e : Entry}

/-- The places that the lookup of a path passes. -/
def trailOf (t : FileTree) (cwd : Location) (last : Last) (p : Path) : List Location :=
  t.trail last linkLimit (p.origin cwd) p.steps

/-- Whether a symbolic link stands at a location. -/
def isLink (t : FileTree) (l : Location) : Bool :=
  match t.get? l with
  | some (.link _) => true
  | _ => false

/-- The lookup of a path meets no symbolic link, not even at its end. -/
def MeetsNoLink (t : FileTree) (cwd : Location) (last : Last) (p : Path) : Prop :=
  ∀ v ∈ t.trailOf cwd last p, t.isLink v = false

instance : Decidable (t.MeetsNoLink cwd last p) :=
  inferInstanceAs (Decidable (∀ v ∈ t.trailOf cwd last p, t.isLink v = false))

/-- There is no symbolic link in the whole tree. -/
def LinkFree (t : FileTree) : Prop :=
  ∀ l, t.isLink l = false

theorem isLink_eq_false {target : Path} (h : t.isLink l = false) : t.get? l ≠ some (.link target) := by
  intro hlink
  simp [isLink, hlink] at h

theorem isLink_of_partOf (hpart : s.PartOf t) (h : t.isLink l = false) : s.isLink l = false := by
  unfold isLink
  split
  · next target hlink => exact absurd (hpart l _ hlink) (isLink_eq_false h)
  · rfl

theorem LinkFree.meetsNoLink (h : t.LinkFree) : t.MeetsNoLink cwd last p :=
  fun v _ => h v

theorem LinkFree.of_partOf (h : t.LinkFree) (hpart : s.PartOf t) : s.LinkFree :=
  fun l => isLink_of_partOf hpart (h l)

theorem linkFree_bare : bare.LinkFree := by
  intro l
  unfold isLink
  split
  · next target hlink =>
    rw [get?, bare, Std.ExtTreeMap.getElem?_insert] at hlink
    split at hlink <;> simp at hlink
  · rfl

theorem LinkFree.put (h : t.LinkFree) {n : Name} (hentry : ∀ target, e ≠ .link target) :
    (t.put n l e).LinkFree := by
  intro k
  by_cases hplace : t.hasPlace n l = true
  · rw [isLink, get?_put hplace]
    split
    · next target hlink =>
      split at hlink
      · exact absurd (Option.some.inj hlink) (hentry target)
      · exact absurd hlink (isLink_eq_false (h k))
    · rfl
  · rw [FileTree.put, dif_neg hplace]
    exact h k

theorem locate_eq_ok_iff :
    t.locate cwd last p = .ok l ↔
      checkPath p = .ok () ∧ Leads t last linkLimit (p.origin cwd) p.steps l := by
  rw [locate, Sequence.bind_eq_ok_iff, ← walk_eq_ok_iff]
  simp only [Sequence.mapError_eq_ok_iff]
  constructor
  · rintro ⟨⟨⟩, hcheck, hwalk⟩
    exact ⟨hcheck, hwalk⟩
  · rintro ⟨hcheck, hwalk⟩
    exact ⟨(), hcheck, hwalk⟩

theorem entry_eq_ok_iff :
    t.entry cwd last p = .ok (l, e) ↔ t.locate cwd last p = .ok l ∧ t.get? l = some e := by
  rw [entry, Sequence.bind_eq_ok_iff]
  constructor
  · rintro ⟨m, hlocate, h⟩
    cases hentry : t.get? m with
    | none => simp [hentry, throw, throwThe, MonadExceptOf.throw] at h
    | some f =>
      simp only [hentry, pure, Except.pure, Except.ok.injEq, Prod.mk.injEq] at h
      obtain ⟨rfl, rfl⟩ := h
      exact ⟨hlocate, hentry⟩
  · rintro ⟨hlocate, hentry⟩
    refine ⟨l, hlocate, ?_⟩
    rw [hentry]
    rfl

theorem ne_nil_of_entry (h : t.entry cwd last p = .ok (l, e)) : p ≠ [] := by
  rintro rfl
  simp [entry, locate, checkPath, bind, Except.bind] at h

theorem isDirectoryPath_iff :
    t.isDirectoryPath cwd p = true ↔ ∃ l, t.entry cwd .follow p = .ok (l, .directory) := by
  unfold isDirectoryPath
  split
  · next l hentry => simp [hentry]
  · next hother => simpa using hother

/-- What a path names in a part of a tree, it names in the whole tree. -/
theorem entry_of_partOf (hpart : s.PartOf t) (hlast : last ≠ .create)
    (h : s.entry cwd last p = .ok (l, e)) : t.entry cwd last p = .ok (l, e) := by
  obtain ⟨hlocate, hentry⟩ := entry_eq_ok_iff.1 h
  obtain ⟨hcheck, hleads⟩ := locate_eq_ok_iff.1 hlocate
  exact entry_eq_ok_iff.2
    ⟨locate_eq_ok_iff.2 ⟨hcheck, hleads.of_partOf hpart hlast⟩, hpart l e hentry⟩

theorem exists_of_mem_trailOf (h : t.entry cwd last p = .ok (l, e)) {v : Location}
    (hv : v ∈ t.trailOf cwd last p) : ∃ f, t.get? v = some f := by
  obtain ⟨hlocate, hentry⟩ := entry_eq_ok_iff.1 h
  exact (locate_eq_ok_iff.1 hlocate).2.exists_of_mem_trail hentry hv

theorem mem_trailOf (h : t.entry cwd last p = .ok (l, e)) : l ∈ t.trailOf cwd last p :=
  (locate_eq_ok_iff.1 (entry_eq_ok_iff.1 h).1).2.mem_trail

theorem trailOf_eq (hpart : s.PartOf t) (hlast : last ≠ .create)
    (h : s.entry cwd last p = .ok (l, e)) : t.trailOf cwd last p = s.trailOf cwd last p :=
  (locate_eq_ok_iff.1 (entry_eq_ok_iff.1 h).1).2.trail_eq hpart hlast

/-- After a removal, a path still names what it named exactly when its lookup passes nothing that
    was removed. -/
theorem entry_eq_ok_iff_of_partOf (hpart : s.PartOf t) (hlast : last ≠ .create)
    (h : t.entry cwd last p = .ok (l, e)) :
    s.entry cwd last p = .ok (l, e) ↔ ∀ v ∈ t.trailOf cwd last p, s.get? v ≠ none := by
  constructor
  · intro hs v hv
    rw [trailOf_eq hpart hlast hs] at hv
    obtain ⟨f, hf⟩ := exists_of_mem_trailOf hs hv
    simp [hf]
  · intro hkept
    have hagree : ∀ v ∈ t.trailOf cwd last p, s.get? v = t.get? v := by
      intro v hv
      obtain ⟨f, hf⟩ := Option.ne_none_iff_exists'.1 (hkept v hv)
      rw [hf, hpart v f hf]
    obtain ⟨hlocate, hentry⟩ := entry_eq_ok_iff.1 h
    obtain ⟨hcheck, hleads⟩ := locate_eq_ok_iff.1 hlocate
    refine entry_eq_ok_iff.2 ⟨locate_eq_ok_iff.2 ⟨hcheck, hleads.of_agree hagree⟩, ?_⟩
    rw [hagree l hleads.mem_trail, hentry]

/-- A path whose lookup stays out of the region of a removal names what it named before. -/
theorem entry_of_loses {region : Location → Prop} (hlost : t.Loses s region) (hlast : last ≠ .create)
    (h : t.entry cwd last p = .ok (l, e)) (hout : ∀ v ∈ t.trailOf cwd last p, ¬ region v) :
    s.entry cwd last p = .ok (l, e) := by
  refine (entry_eq_ok_iff_of_partOf hlost.partOf hlast h).2 fun v hv => ?_
  obtain ⟨f, hf⟩ := exists_of_mem_trailOf h hv
  rw [hlost.get?_eq (hout v hv), hf]
  exact Option.some_ne_none f

section Direct

variable {links : Nat} {here : Location} {step : Bytes} {rest steps : List Bytes}

theorem Moves.eq_advance {m : Location} (h : Moves t last here step rest (.enter m)) :
    m = Path.advance here step := by
  cases h with
  | stay hstay => rw [Path.advance, if_pos hstay]
  | up hgo hup => rw [Path.advance, if_neg (by simp [hgo]), if_pos hup]
  | down hname _ _ _ | create hname _ _ _ =>
    rw [Path.advance, if_neg (by simp [hname.not_stays]), if_neg (by simp [hname.not_up])]

/-- Without links a lookup passes the places its steps lead past, and no others. -/
theorem Leads.mem_trail_iff (h : Leads t last links here steps l)
    (hno : ∀ v ∈ t.trail last links here steps, t.isLink v = false)
    {v : Location} :
    v ∈ t.trail last links here steps ↔
      ∃ front, front <+: steps ∧ v = front.foldl Path.advance here := by
  induction h with
  | done links here => simp [trail_nil, List.prefix_nil]
  | @enter links here m l step rest hdirectory hmove _ ih =>
    rw [trail_of_enter hdirectory hmove] at hno ⊢
    rw [List.mem_cons, ih fun v hv => hno v (List.mem_cons_of_mem _ hv), hmove.eq_advance]
    constructor
    · rintro (rfl | ⟨front, hfront, rfl⟩)
      · exact ⟨[], List.nil_prefix, rfl⟩
      · exact ⟨step :: front, List.cons_prefix_cons.2 ⟨rfl, hfront⟩, rfl⟩
    · rintro ⟨front, hfront, rfl⟩
      rcases List.prefix_cons_iff.1 hfront with rfl | ⟨tail, rfl, htail⟩
      · exact .inl rfl
      · exact .inr ⟨tail, htail, rfl⟩
  | follow hdirectory hmove _ _ =>
    rw [trail_of_follow hdirectory hmove] at hno
    cases hmove with
    | follow _ _ hlink _ =>
      exact absurd hlink (isLink_eq_false (hno _ (List.mem_cons_of_mem _ (List.mem_cons_self ..))))

/-- Without links a lookup leads where its steps lead. -/
theorem Leads.eq_foldl (h : Leads t last links here steps l)
    (hno : ∀ v ∈ t.trail last links here steps, t.isLink v = false) :
    l = steps.foldl Path.advance here := by
  induction h with
  | done links here => rfl
  | enter hdirectory hmove _ ih =>
    rw [trail_of_enter hdirectory hmove] at hno
    rw [List.foldl_cons, ← hmove.eq_advance]
    exact ih fun v hv => hno v (List.mem_cons_of_mem _ hv)
  | follow hdirectory hmove _ _ =>
    rw [trail_of_follow hdirectory hmove] at hno
    cases hmove with
    | follow _ _ hlink _ =>
      exact absurd hlink (isLink_eq_false (hno _ (List.mem_cons_of_mem _ (List.mem_cons_self ..))))

/-- A step finds nothing when there is nothing where it starts or where it leads. -/
theorem move_missing (h : t.move last here step rest = .error .noEntry) :
    t.get? here = none ∨ t.get? (Path.advance here step) = none := by
  unfold move at h
  split at h
  · next hnone => exact .inl hnone
  · cases h
  · cases h
  next hdirectory =>
  split at h
  · cases h
  next hstay =>
  split at h
  · cases h
  next hup =>
  split at h
  · cases h
  split at h
  · cases h
  split at h
  · next hnone =>
    rw [Path.advance, if_neg hstay, if_neg hup]
    exact .inr hnone
  · split at h <;> cases h
  · cases h

/-- Without links, a lookup that finds nothing has come to a place where nothing is. -/
theorem exists_missing_of_walk (h : t.walk last links here steps = .error .noEntry)
    (hno : ∀ v ∈ t.trail last links here steps, t.isLink v = false) :
    ∃ front, front <+: steps ∧ t.get? (front.foldl Path.advance here) = none := by
  induction links, steps using lookup_induction generalizing here with
  | nil links =>
    rw [walk_nil] at h
    cases h
  | cons links step rest ihRest _ =>
    cases hmove : t.move last here step rest with
    | error f =>
      rw [walk_of_error hmove] at h
      cases h
      rcases move_missing hmove with hnone | hnone
      · exact ⟨[], List.nil_prefix, hnone⟩
      · exact ⟨[step], List.prefix_append [step] rest, hnone⟩
    | ok m =>
      obtain ⟨hdirectory, hmoves⟩ := move_eq_ok_iff.1 hmove
      cases m with
      | enter m =>
        rw [walk_of_enter hmove] at h
        rw [trail_of_enter hdirectory hmoves] at hno
        obtain ⟨front, hfront, hnone⟩ := ihRest h fun v hv => hno v (List.mem_cons_of_mem _ hv)
        rw [hmoves.eq_advance] at hnone
        exact ⟨step :: front, List.cons_prefix_cons.2 ⟨rfl, hfront⟩, hnone⟩
      | follow target =>
        cases links with
        | zero =>
          rw [walk_of_no_links hmove] at h
          cases h
        | succ links =>
          rw [trail_of_follow hdirectory hmoves] at hno
          cases hmoves with
          | follow _ _ hlink _ =>
            exact absurd hlink
              (isLink_eq_false (hno _ (List.mem_cons_of_mem _ (List.mem_cons_self ..))))

end Direct

theorem exists_missing_of_entry (h : t.entry cwd last p = .error (.system .noEntry)) (hp : p ≠ [])
    (hno : t.MeetsNoLink cwd last p) : ∃ v, p.passes cwd v ∧ t.get? v = none := by
  have hpasses (front : List Bytes) (hfront : front <+: p.steps) :
      p.passes cwd (front.foldl Path.advance (p.origin cwd)) :=
    Path.passes_iff_steps.2 ⟨front, hfront, rfl⟩
  rw [entry, Sequence.bind_eq_error_iff] at h
  rcases h with hlocate | ⟨l, hlocate, hnone⟩
  · rw [locate, Sequence.bind_eq_error_iff] at hlocate
    rcases hlocate with hcheck | ⟨-, -, hwalk⟩
    · unfold checkPath at hcheck
      split at hcheck
      · cases hcheck
      split at hcheck
      · cases hcheck
      · cases hcheck
    · obtain ⟨f, hwalk, hf⟩ := Sequence.mapError_eq_error_iff.1 hwalk
      obtain rfl := FileError.system.inj hf
      obtain ⟨front, hfront, hmissing⟩ := exists_missing_of_walk hwalk hno
      exact ⟨_, hpasses front hfront, hmissing⟩
  · have hleads := (locate_eq_ok_iff.1 hlocate).2
    refine ⟨l, ?_, ?_⟩
    · rw [hleads.eq_foldl hno]
      exact hpasses p.steps (List.prefix_refl _)
    · split at hnone
      · cases hnone
      · next hmissing => exact hmissing

theorem eq_place_of_locate (h : t.locate cwd last p = .ok l) (hno : t.MeetsNoLink cwd last p) :
    l = p.place cwd := by
  rw [Path.place, ← Path.foldl_steps]
  exact (locate_eq_ok_iff.1 h).2.eq_foldl hno

theorem eq_place_of_entry (h : t.entry cwd last p = .ok (l, e)) (hno : t.MeetsNoLink cwd last p) :
    l = p.place cwd :=
  eq_place_of_locate (entry_eq_ok_iff.1 h).1 hno

theorem mem_trailOf_iff (h : t.entry cwd last p = .ok (l, e)) (hno : t.MeetsNoLink cwd last p)
    {v : Location} : v ∈ t.trailOf cwd last p ↔ p.passes cwd v := by
  rw [Path.passes_iff_steps]
  exact (locate_eq_ok_iff.1 (entry_eq_ok_iff.1 h).1).2.mem_trail_iff hno

/-- The lookup of a path that goes on from another by names passes what the lookup of the other
    passes, and then only what lies above the place it leads to. -/
theorem mem_trailOf_join {last' : Last} {q : Path} {base : Location} {f : Entry} (hlinks : t.LinkFree)
    (hp : t.entry cwd last p = .ok (base, f)) (hq : q.Inner)
    (h : t.entry cwd last' (p.join q) = .ok (l, e)) {v : Location}
    (hv : v ∈ t.trailOf cwd last' (p.join q)) : v ∈ t.trailOf cwd last p ∨ v <:+ l := by
  rw [mem_trailOf_iff h hlinks.meetsNoLink, hq.passes_join] at hv
  rcases hv with hbefore | ⟨names, hnames, rfl⟩
  · exact .inl ((mem_trailOf_iff hp hlinks.meetsNoLink).2 hbefore)
  · rw [eq_place_of_entry h hlinks.meetsNoLink, hq.place_join, Path.suffix_iff_names_prefix]
    exact .inr hnames

/-- Where the lookup of a directory stays out of the region of a removal, a path that goes on from it
    by names still names what is left of what it named. -/
theorem entry_join_of_loses {last' : Last} {region : Location → Prop} {q : Path} {base : Location}
    {f : Entry} (hlost : t.Loses s region) (hlinks : t.LinkFree)
    (hp : t.entry cwd last p = .ok (base, f)) (hout : ∀ v ∈ t.trailOf cwd last p, ¬ region v)
    (hq : q.Inner) (hlast : last' ≠ .create) (h : t.entry cwd last' (p.join q) = .ok (l, e))
    (hleft : s.get? l ≠ none) : s.entry cwd last' (p.join q) = .ok (l, e) := by
  refine (entry_eq_ok_iff_of_partOf hlost.partOf hlast h).2 fun v hv => ?_
  rcases mem_trailOf_join hlinks hp hq h hv with hbefore | habove
  · obtain ⟨g, hg⟩ := exists_of_mem_trailOf hp hbefore
    rw [hlost.get?_eq (hout v hbefore), hg]
    exact Option.some_ne_none g
  · obtain ⟨g, hg⟩ := Option.ne_none_iff_exists'.1 hleft
    obtain ⟨e', he'⟩ := exists_of_suffix hg habove
    rw [he']
    exact Option.some_ne_none e'

end DocBuild.FileTree
