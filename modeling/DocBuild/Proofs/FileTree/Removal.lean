import DocBuild.Proofs.FileTree.Parent

namespace DocBuild.FileTree

variable {r t : FileTree} {cwd l : Location} {p : Path} {e : Entry}

/-- The place lies at or below what a path names, a link at its end not followed. -/
def Under (t : FileTree) (cwd : Location) (p : Path) (k : Location) : Prop :=
  ∃ l e, t.entry cwd .keep p = .ok (l, e) ∧ l <:+ k

instance (k : Location) : Decidable (t.Under cwd p k) :=
  decidable_of_iff
    ((match t.entry cwd .keep p with
      | .ok (l, _) => l.isSuffixOf k
      | .error _ => false) = true) (by
    unfold Under
    split
    · next l e hentry => simp [hentry]
    · next f hentry => simp [hentry])

/-- What lies at or below a path in a part of a tree lies there in the whole tree. -/
theorem Under.of_partOf {k : Location} (hpart : r.PartOf t) (h : r.Under cwd p k) :
    t.Under cwd p k := by
  obtain ⟨l, e, hentry, hk⟩ := h
  exact ⟨l, e, entry_of_partOf hpart (by decide) hentry, hk⟩

/-- Only a directory that the path names is removed as one. -/
theorem removeDirectory_eq_ok (h : t.removeDirectory cwd p = .ok r) :
    ∃ l, l ≠ [] ∧ t.entry cwd .keep p = .ok (l, .directory) ∧ r = t.prune l := by
  unfold removeDirectory at h
  rw [Sequence.bind_eq_ok_iff] at h
  obtain ⟨⟨d, final⟩, hparent, h⟩ := h
  cases final with
  | root => cases h
  | here => cases h
  | up => cases h
  | name n slash =>
    dsimp only at h
    split at h
    · cases h
    · next hdirectory =>
      split at h
      · have hentry : t.entry cwd .keep p = .ok (n :: d, .directory) :=
          (heldIn_of_parentOf hparent).1.entry_eq (by decide) hdirectory (fun _ _ => rfl) fun _ => rfl
        exact ⟨n :: d, by simp, hentry, (Except.ok.inj h).symm⟩
      · cases h
    · cases h

theorem removeDirectory_missing (h : t.removeDirectory cwd p = .error (.system .noEntry)) :
    t.entry cwd .keep p = .error (.system .noEntry) := by
  unfold removeDirectory at h
  rw [Sequence.bind_eq_error_iff] at h
  rcases h with hparent | ⟨⟨d, final⟩, hparent, h⟩
  · exact entry_of_parentOf_missing hparent
  cases final with
  | root => cases h
  | here => cases h
  | up => cases h
  | name n slash =>
    dsimp only at h
    split at h
    · next hnone => exact (heldIn_of_parentOf hparent).1.entry_missing (by decide) hnone
    · split at h <;> cases h
    · cases h

/-- Only a file or a link that the path names is removed as one. -/
theorem removeFile_eq_ok (h : t.removeFile cwd p = .ok r) :
    ∃ l e, l ≠ [] ∧ t.entry cwd .keep p = .ok (l, e) ∧ r = t.prune l := by
  unfold removeFile at h
  rw [Sequence.bind_eq_ok_iff] at h
  obtain ⟨⟨d, final⟩, hparent, h⟩ := h
  cases final with
  | root => cases h
  | here => cases h
  | up => cases h
  | name n slash =>
    dsimp only at h
    split at h
    · cases h
    · cases h
    · next e _ hentry =>
      split at h
      · cases h
      · next hslash =>
        obtain ⟨hheld, rfl⟩ := heldIn_of_parentOf hparent
        have hfound : t.entry cwd .keep p = .ok (n :: d, e) :=
          hheld.entry_eq (by decide) hentry (fun _ _ => rfl) fun hends => absurd hends (by simpa using hslash)
        exact ⟨n :: d, e, by simp, hfound, (Except.ok.inj h).symm⟩

theorem removeFile_missing (h : t.removeFile cwd p = .error (.system .noEntry)) :
    t.entry cwd .keep p = .error (.system .noEntry) := by
  unfold removeFile at h
  rw [Sequence.bind_eq_error_iff] at h
  rcases h with hparent | ⟨⟨d, final⟩, hparent, h⟩
  · exact entry_of_parentOf_missing hparent
  cases final with
  | root => cases h
  | here => cases h
  | up => cases h
  | name n slash =>
    dsimp only at h
    split at h
    · next hnone => exact (heldIn_of_parentOf hparent).1.entry_missing (by decide) hnone
    · cases h
    · split at h <;> cases h

/-- The ways in which a removal can end, with the tree it leaves. -/
inductive Removal (t : FileTree) (cwd : Location) (p : Path) :
    FileTree × Except FileError Bool → Prop where
  /-- There was nothing to remove. -/
  | absent (hmissing : t.entry cwd .keep p = .error (.system .noEntry)) :
      Removal t cwd p (t, .ok false)
  | removed {l : Location} {e : Entry} (hroot : l ≠ [])
      (hentry : t.entry cwd .keep p = .ok (l, e))
      (hdirect : ∀ v ∈ t.trailOf cwd .keep p, l <:+ v → v = l) :
      Removal t cwd p (t.prune l, .ok true)
  /-- The path led through the directory that was emptied, and names nothing since. -/
  | emptied {l : Location} (hentry : t.entry cwd .keep p = .ok (l, .directory))
      (hthrough : ¬ ∀ v ∈ t.trailOf cwd .keep p, l <:+ v → v = l) :
      Removal t cwd p (t.clear l, .ok true)
  | failed {r : FileTree} {f : FileError} (hlost : t.Loses r (t.Under cwd p)) :
      Removal t cwd p (r, .error f)

theorem isMissing_iff {f : FileError} : f.isMissing = true ↔ f = .system .noEntry :=
  decide_eq_true_iff

/-- A directory that was emptied before is removed with everything that was in it. -/
theorem prune_clear (hroot : l ≠ []) : (t.clear l).prune l = t.prune l := by
  ext1 k
  rw [get?_prune hroot, get?_prune hroot, get?_clear]
  split
  · rfl
  · next h => rw [if_neg fun hk => h hk.1]

/-- An emptied directory is still found by exactly the paths that do not lead through it. -/
theorem entry_clear_iff (hentry : t.entry cwd .keep p = .ok (l, e)) :
    (t.clear l).entry cwd .keep p = .ok (l, e) ↔ ∀ v ∈ t.trailOf cwd .keep p, l <:+ v → v = l := by
  rw [entry_eq_ok_iff_of_partOf (loses_clear t l).partOf (by decide) hentry]
  refine forall₂_congr fun v hv => ?_
  obtain ⟨f, hf⟩ := exists_of_mem_trailOf hentry hv
  rw [get?_clear, hf]
  by_cases hbelow : l <:+ v ∧ v ≠ l
  · simp [hbelow]
  · rw [if_neg hbelow]
    exact iff_of_true (Option.some_ne_none f) fun h =>
      Decidable.byContradiction fun hne => hbelow ⟨h, hne⟩

theorem removal_removeForced (t : FileTree) (obstacles : Obstacles) (cwd : Location) (p : Path) :
    Removal t cwd p (t.removeForced obstacles cwd p) := by
  unfold removeForced
  split
  · next f hentry =>
    split
    · next hmissing =>
      rw [isMissing_iff.1 hmissing] at hentry
      exact .absent hentry
    · exact .failed (Loses.refl t _)
  next l found hentry =>
  have hbelow : ∀ k, l <:+ k ∧ k ≠ l → t.Under cwd p k := fun k hk => ⟨l, found, hentry, hk.1⟩
  split
  · next i _ => exact .failed ((loses_leave i t l).mono hbelow)
  · have hlost := (loses_clear t l).mono hbelow
    dsimp only
    split
    · next r hremove =>
      obtain ⟨m, hroot, hentry', rfl⟩ := removeDirectory_eq_ok hremove
      have hsame := entry_of_partOf (loses_clear t l).partOf (by decide) hentry'
      rw [hentry] at hsame
      cases hsame
      rw [prune_clear hroot]
      exact .removed hroot hentry ((entry_clear_iff hentry).1 hentry')
    · next f hremove =>
      split
      · next hmissing =>
        rw [isMissing_iff.1 hmissing] at hremove
        refine .emptied hentry fun hdirect => ?_
        rw [← entry_clear_iff hentry, removeDirectory_missing hremove] at hdirect
        cases hdirect
      · exact .failed hlost
  · next hfile =>
    split
    · next r hremove =>
      obtain ⟨m, e, hroot, hentry', rfl⟩ := removeFile_eq_ok hremove
      rw [hentry] at hentry'
      cases hentry'
      refine .removed hroot hentry fun v hv hbelow => ?_
      obtain ⟨f, hf⟩ := exists_of_mem_trailOf hentry hv
      refine Decidable.byContradiction fun hne => ?_
      have hdirectory := directory_of_below hf hbelow hne
      rw [(entry_eq_ok_iff.1 hentry).2] at hdirectory
      exact hfile (Option.some.inj hdirectory)
    · next f hremove =>
      split
      · next hmissing =>
        rw [isMissing_iff.1 hmissing] at hremove
        exact .absent (removeFile_missing hremove)
      · exact .failed (Loses.refl t _)

/-- A removal takes nothing from outside the place that the path names. -/
theorem Removal.loses {result : FileTree × Except FileError Bool} (h : Removal t cwd p result) :
    t.Loses result.1 (t.Under cwd p) := by
  cases h with
  | absent _ => exact Loses.refl t _
  | @removed l e hroot hentry _ => exact (loses_prune t l).mono fun k hk => ⟨l, e, hentry, hk⟩
  | @emptied l hentry _ => exact (loses_clear t l).mono fun k hk => ⟨l, _, hentry, hk.1⟩
  | failed hlost => exact hlost

/-- A removal succeeds where the path names something or nothing, but not where it cannot tell. -/
theorem Removal.missing_or_entry {removed : Bool} (h : Removal t cwd p (r, .ok removed)) :
    t.entry cwd .keep p = .error (.system .noEntry) ∨ ∃ l e, t.entry cwd .keep p = .ok (l, e) := by
  generalize hresult : (r, Except.ok removed) = result at h
  cases h with
  | absent hmissing => exact .inl hmissing
  | removed _ hentry _ => exact .inr ⟨_, _, hentry⟩
  | emptied hentry _ => exact .inr ⟨_, _, hentry⟩
  | failed _ => cases hresult

/-- What a removal takes when it succeeds: everything below what the path names, and the place itself
    unless the path leads through something below it. -/
def Taken (t : FileTree) (cwd : Location) (p : Path) (k : Location) : Prop :=
  ∃ l e, t.entry cwd .keep p = .ok (l, e) ∧ l <:+ k ∧
    (k = l → ∀ v ∈ t.trailOf cwd .keep p, l <:+ v → v = l)

theorem Taken.under {k : Location} (h : t.Taken cwd p k) : t.Under cwd p k := by
  obtain ⟨l, e, hentry, hk, -⟩ := h
  exact ⟨l, e, hentry, hk⟩

/-- A removal that succeeds takes what it is to take, and nothing else. -/
theorem Removal.taken {removed : Bool} (h : Removal t cwd p (r, .ok removed)) :
    t.Loses r (t.Taken cwd p) ∧ ∀ k, t.Taken cwd p k → r.get? k = none := by
  generalize hresult : (r, Except.ok removed) = result at h
  cases h with
  | absent hmissing =>
    cases hresult
    refine ⟨Loses.refl _ _, ?_⟩
    rintro k ⟨l, e, hentry, -, -⟩
    rw [hmissing] at hentry
    cases hentry
  | @removed l e hroot hentry hdirect =>
    cases hresult
    refine ⟨(loses_prune t l).mono fun k hk => ⟨l, e, hentry, hk, fun _ => hdirect⟩, ?_⟩
    rintro k ⟨m, f, hentry', hk, -⟩
    rw [hentry] at hentry'
    cases hentry'
    rw [get?_prune hroot, if_pos hk]
  | @emptied l hentry hthrough =>
    cases hresult
    refine ⟨(loses_clear t l).mono fun k hk => ⟨l, _, hentry, hk.1, fun h => absurd h hk.2⟩, ?_⟩
    rintro k ⟨m, f, hentry', hk, hdirect⟩
    rw [hentry] at hentry'
    cases hentry'
    rw [get?_clear, if_pos ⟨hk, fun heq => hthrough (hdirect heq)⟩]
  | failed _ => cases hresult

end DocBuild.FileTree
