import DocBuild.FileTree.Removal

namespace DocBuild.FileTree

variable {r s t : FileTree}

/-- Every entry of `s` is an entry of `t`. -/
def PartOf (s t : FileTree) : Prop :=
  ∀ k e, s.get? k = some e → t.get? k = some e

/-- `s` is `t` without some of the entries in a region. -/
def Loses (t s : FileTree) (region : Location → Prop) : Prop :=
  ∀ k, s.get? k = t.get? k ∨ s.get? k = none ∧ region k

theorem Loses.partOf {region : Location → Prop} (h : t.Loses s region) : s.PartOf t := by
  intro k e he
  rcases h k with hsame | ⟨hnone, -⟩
  · rwa [← hsame]
  · rw [hnone] at he
    cases he

theorem Loses.refl (t : FileTree) (region : Location → Prop) : t.Loses t region :=
  fun _ => .inl rfl

theorem Loses.mono {region region' : Location → Prop} (h : t.Loses s region)
    (hregion : ∀ k, region k → region' k) : t.Loses s region' :=
  fun k => (h k).imp_right fun ⟨hnone, hk⟩ => ⟨hnone, hregion k hk⟩

theorem Loses.trans {region : Location → Prop} (h : t.Loses s region) (h' : s.Loses r region) :
    t.Loses r region := by
  intro k
  rcases h' k with hsame | hlost
  · rw [hsame]
    exact h k
  · exact .inr hlost

/-- An entry outside the region is the same before and after. -/
theorem Loses.get?_eq {region : Location → Prop} (h : t.Loses s region) {k : Location}
    (hk : ¬ region k) : s.get? k = t.get? k :=
  (h k).resolve_right fun hlost => hk hlost.2

theorem PartOf.get?_eq_none (h : s.PartOf t) {k : Location} (hk : t.get? k = none) :
    s.get? k = none := by
  cases hs : s.get? k with
  | none => rfl
  | some e =>
    have ht := h k e hs
    rw [hk] at ht
    cases ht

/-- Above every entry there are directories up to the root. -/
theorem exists_of_suffix {l v : Location} {e : Entry} (hentry : t.get? l = some e) (hv : v <:+ l) :
    ∃ f, t.get? v = some f := by
  induction l generalizing e with
  | nil => exact ⟨e, List.suffix_nil.1 hv ▸ hentry⟩
  | cons n l ih =>
    rcases List.suffix_cons_iff.1 hv with rfl | hv
    · exact ⟨e, hentry⟩
    · exact ih (get?_parent hentry) hv

/-- Where nothing is, nothing lies below. -/
theorem get?_eq_none_of_suffix {l v : Location} (h : t.get? l = none) (hv : l <:+ v) :
    t.get? v = none := by
  refine Option.eq_none_iff_forall_ne_some.2 fun e hentry => ?_
  obtain ⟨f, hf⟩ := exists_of_suffix hentry hv
  rw [h] at hf
  cases hf

/-- Only a directory has anything below it. -/
theorem directory_of_below {l v : Location} {e : Entry} (hentry : t.get? v = some e) (hbelow : l <:+ v)
    (hne : v ≠ l) : t.get? l = some .directory := by
  cases v with
  | nil => exact absurd (List.suffix_nil.1 hbelow).symm hne
  | cons n v =>
    rcases List.suffix_cons_iff.1 hbelow with heq | hbelow
    · exact absurd heq.symm hne
    by_cases hsame : v = l
    · rw [← hsame]
      exact get?_parent hentry
    · exact directory_of_below (get?_parent hentry) hbelow hsame

theorem loses_clear (t : FileTree) (l : Location) :
    t.Loses (t.clear l) fun k => l <:+ k ∧ k ≠ l := by
  intro k
  rw [get?_clear]
  split
  · next h => exact .inr ⟨rfl, h⟩
  · exact .inl rfl

theorem loses_prune (t : FileTree) (l : Location) : t.Loses (t.prune l) (l <:+ ·) := by
  intro k
  by_cases hl : l = []
  · rw [prune, dif_pos hl]
    exact .inl rfl
  · rw [get?_prune hl]
    split
    · next h => exact .inr ⟨rfl, h⟩
    · exact .inl rfl

/-- A deletion that is cut short takes nothing from outside the place it was at work on. -/
theorem loses_leave (i : Interruption) (t : FileTree) (l : Location) :
    t.Loses (i.leave t l) fun k => l <:+ k ∧ k ≠ l := by
  unfold Interruption.leave
  induction i.gone generalizing t with
  | nil => exact Loses.refl t _
  | cons g gone ih =>
    rw [List.filter_cons]
    split
    · next hbelow =>
      refine Loses.trans ?_ (ih (t.prune g))
      refine (loses_prune t g).mono fun k hk => ?_
      simp only [below, Bool.and_eq_true, List.isSuffixOf_iff_suffix, decide_eq_true_eq] at hbelow
      refine ⟨hbelow.1.trans hk, ?_⟩
      rintro rfl
      exact hbelow.2 (hk.eq_of_length_le hbelow.1.length_le)
    · exact ih t

end DocBuild.FileTree
