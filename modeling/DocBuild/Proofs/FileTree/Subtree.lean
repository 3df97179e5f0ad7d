import DocBuild.Proofs.FileTree.Absence

namespace DocBuild.FileTree

variable {r t : FileTree} {cwd base k : Location} {last : Last} {p q : Path} {e : Entry}

/-- Nothing is cut off where nothing is. -/
theorem prune_eq_self (h : t.get? k = none) : t.prune k = t := by
  have hroot : k ≠ [] := by
    rintro rfl
    rw [get?_root] at h
    cases h
  ext1 v
  rw [get?_prune hroot]
  split
  · next hbelow => exact (get?_eq_none_of_suffix h hbelow).symm
  · rfl

section Below

variable (hlinks : t.LinkFree) (hbase : t.entry cwd .follow p = .ok (base, .directory))
  (hq : q.Inner)
include hlinks hbase

/-- The lookup of a directory that is found stays out of every place where nothing is. -/
theorem not_suffix_of_passes (h : t.get? k = none) {v : Location} (hv : p.passes cwd v) :
    ¬ k <:+ v := by
  intro hbelow
  obtain ⟨f, hf⟩ := exists_of_mem_trailOf hbase ((mem_trailOf_iff hbase hlinks.meetsNoLink).2 hv)
  rw [get?_eq_none_of_suffix h hbelow] at hf
  cases hf

include hq

/-- Below a directory that is found, a path names nothing only if nothing is at its place. -/
theorem get?_place_of_missing
    (h : t.entry cwd last (p.join q) = .error (.system .noEntry)) :
    t.get? ((p.join q).place cwd) = none := by
  obtain ⟨v, hv, hnone⟩ := exists_missing_of_entry h (hq.join_ne_nil p) hlinks.meetsNoLink
  rcases hq.passes_join.1 hv with hbefore | ⟨names, hnames, rfl⟩
  · exact absurd (List.suffix_refl v) (not_suffix_of_passes hlinks hbase hnone hbefore)
  · rw [hq.place_join]
    exact get?_eq_none_of_suffix hnone ((Path.suffix_iff_names_prefix ..).2 hnames)

/-- A removal that succeeds cuts off the subtree at the place of its path, and answers whether there
    was one, as long as the directory is not spelt through that place. -/
theorem Removal.eq_prune {removed : Bool}
    (hout : ∀ v, p.passes cwd v → ¬ (p.join q).place cwd <:+ v)
    (h : Removal t cwd (p.join q) (r, .ok removed)) :
    r = t.prune ((p.join q).place cwd) ∧
      (removed = true ↔ t.get? ((p.join q).place cwd) ≠ none) := by
  rcases h.leaves with ⟨hmissing, rfl, rfl⟩ | ⟨l, e, hentry, rfl, -, hdirect, -⟩
  · have hnone := get?_place_of_missing hlinks hbase hq hmissing
    exact ⟨(prune_eq_self hnone).symm, by simp [hnone]⟩
  · obtain rfl := eq_place_of_entry hentry hlinks.meetsNoLink
    have hfound := (entry_eq_ok_iff.1 hentry).2
    refine ⟨hdirect fun v hv hbelow => ?_, by simp [hfound]⟩
    rcases mem_trailOf_join hlinks hbase hq hentry hv with hbefore | habove
    · have hpassed := (mem_trailOf_iff hbase hlinks.meetsNoLink).1 hbefore
      exact absurd hbelow (hout v hpassed)
    · exact habove.eq_of_length_le hbelow.length_le

end Below

end DocBuild.FileTree
