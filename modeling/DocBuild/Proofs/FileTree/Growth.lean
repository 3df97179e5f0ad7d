import DocBuild.FileTree.Operations
import DocBuild.Proofs.FileTree.Parent

namespace DocBuild.FileTree

variable {r s t : FileTree} {cwd k : Location} {p : Path} {content : Bytes} {executable : Bool}

/-- `s` is `t` with some directories where `t` has nothing. -/
def Grows (t s : FileTree) : Prop :=
  ∀ k, s.get? k = t.get? k ∨ t.get? k = none ∧ s.get? k = some .directory

theorem Grows.refl (t : FileTree) : t.Grows t :=
  fun _ => .inl rfl

theorem Grows.trans (h : t.Grows s) (h' : s.Grows r) : t.Grows r := by
  intro k
  rcases h k with hsame | ⟨hnone, hdirectory⟩
  · rw [← hsame]
    exact h' k
  · rcases h' k with hsame | ⟨hnone', -⟩
    · exact .inr ⟨hnone, hsame.trans hdirectory⟩
    · rw [hdirectory] at hnone'
      cases hnone'

theorem Grows.partOf (h : t.Grows s) : t.PartOf s := by
  intro k e hentry
  rcases h k with hsame | ⟨hnone, -⟩
  · rw [hsame, hentry]
  · rw [hentry] at hnone
    cases hnone

/-- Files are neither made nor changed. -/
theorem Grows.file_iff (h : t.Grows s) :
    s.get? k = some (.file content executable) ↔ t.get? k = some (.file content executable) := by
  refine ⟨fun hfile => ?_, h.partOf k _⟩
  rcases h k with hsame | ⟨-, hdirectory⟩
  · rw [← hsame, hfile]
  · rw [hfile] at hdirectory
    cases hdirectory

theorem grows_put {n : Name} {l : Location} (hfree : t.get? (n :: l) = none) :
    t.Grows (t.put n l .directory) := by
  intro k
  by_cases hplace : t.hasPlace n l = true
  · rw [get?_put hplace]
    split
    · next heq =>
      subst heq
      exact .inr ⟨hfree, rfl⟩
    · exact .inl rfl
  · rw [put, dif_neg hplace]
    exact .inl rfl

/-- A directory is created where the name was free. -/
theorem makeDirectory_eq_ok (h : t.makeDirectory cwd p = .ok s) :
    ∃ l n slash, t.parentOf cwd p = .ok (l, .name n slash) ∧ t.get? (n :: l) = none ∧
      s = t.put n l .directory := by
  unfold makeDirectory at h
  obtain ⟨⟨l, final⟩, hparent, h⟩ := Sequence.bind_eq_ok_iff.1 h
  cases final with
  | root => cases h
  | here => cases h
  | up => cases h
  | name n slash =>
    dsimp only at h
    split at h
    · cases h
    · next hfree =>
      cases h
      exact ⟨l, n, slash, hparent, by simpa using hfree, rfl⟩

theorem grows_makeDirectory (h : t.makeDirectory cwd p = .ok s) : t.Grows s := by
  obtain ⟨l, n, -, -, hfree, rfl⟩ := makeDirectory_eq_ok h
  exact grows_put hfree

theorem grows_makeDirectories (cwd : Location) (ps : List Path) (t : FileTree) :
    t.Grows (makeDirectories cwd ps t).1 := by
  induction ps generalizing t with
  | nil => exact Grows.refl t
  | cons p ancestors ih =>
    unfold makeDirectories
    split
    · exact Grows.refl t
    split
    · next s hmake => exact grows_makeDirectory hmake
    next e hmake =>
    split
    · have hgrows := ih t
      split
      · next s f hancestors =>
        rw [hancestors] at hgrows
        exact hgrows
      · next s hancestors =>
        rw [hancestors] at hgrows
        split
        · next r hagain => exact hgrows.trans (grows_makeDirectory hagain)
        · split <;> exact hgrows
    · split <;> exact Grows.refl t

theorem grows_makePath (t : FileTree) (cwd : Location) (p : Path) :
    t.Grows (t.makePath cwd p).1 :=
  grows_makeDirectories cwd (lineage p) t

end DocBuild.FileTree
