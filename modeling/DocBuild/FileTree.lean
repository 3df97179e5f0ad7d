import Std.Data.ExtTreeMap
import DocBuild.Path

namespace DocBuild

/-- A place in a file tree: the names that lead to it, the innermost first. The root is `[]`. -/
abbrev Location := List Name

/-- The absolute path of a location, without links. -/
def Location.path (l : Location) : Path :=
  match l with
  | [] => [Bytes.slash]
  | _ => l.reverse.flatMap fun n => Bytes.slash :: n

inductive Entry where
  | directory
  | file (content : Bytes) (executable : Bool)
  /-- A symbolic link; its target is a path and may name anything or nothing. -/
  | link (target : Path)
  deriving DecidableEq, Repr

structure FileTree where
  entries : Std.ExtTreeMap Location Entry compare
  root_directory : entries[([] : Location)]? = some .directory
  parent_directory : ∀ (n : Name) (l : Location) (e : Entry),
    entries[n :: l]? = some e → entries[l]? = some .directory

namespace FileTree

def get? (t : FileTree) (l : Location) : Option Entry :=
  t.entries[l]?

def isDirectory (t : FileTree) (l : Location) : Bool :=
  t.get? l = some .directory

theorem isDirectory_iff {t : FileTree} {l : Location} :
    t.isDirectory l = true ↔ t.get? l = some .directory :=
  decide_eq_true_iff

@[simp] theorem get?_root (t : FileTree) : t.get? [] = some .directory :=
  t.root_directory

theorem get?_parent {t : FileTree} {n : Name} {l : Location} {e : Entry}
    (h : t.get? (n :: l) = some e) : t.get? l = some .directory :=
  t.parent_directory n l e h

/-- Trees are determined by what is at each location. -/
@[ext] theorem ext {s t : FileTree} (h : ∀ l, s.get? l = t.get? l) : s = t := by
  obtain ⟨a, _, _⟩ := s
  obtain ⟨b, _, _⟩ := t
  have hab : a = b := Std.ExtTreeMap.ext_getElem? h
  subst hab
  rfl

/-- The tree with nothing but the root. -/
def bare : FileTree where
  entries := Std.ExtTreeMap.empty.insert [] .directory
  root_directory := by simp
  parent_directory n l e h := by
    rw [Std.ExtTreeMap.getElem?_insert] at h
    simp at h

/-- Whether `put` has a place for an entry: it lies in a directory and replaces no directory. -/
def hasPlace (t : FileTree) (n : Name) (l : Location) : Bool :=
  t.isDirectory l && !t.isDirectory (n :: l)

/-- Places an entry in the directory `l`, instead of a file or link of that name. Where there is no
    such directory, or the name is a directory's, the tree stays as it is. -/
def put (t : FileTree) (n : Name) (l : Location) (e : Entry) : FileTree :=
  if h : t.hasPlace n l = true then
    { entries := t.entries.insert (n :: l) e
      root_directory := by
        rw [Std.ExtTreeMap.getElem?_insert]
        simpa using t.root_directory
      parent_directory := by
        intro m k f hm
        simp only [hasPlace, Bool.and_eq_true, Bool.not_eq_true', ← Bool.not_eq_true,
          isDirectory_iff, get?] at h
        have hk : t.entries[k]? = some .directory := by
          rw [Std.ExtTreeMap.getElem?_insert] at hm
          split at hm
          · next heq =>
            have := Std.LawfulEqCmp.eq_of_compare heq
            simp only [List.cons.injEq] at this
            exact this.2 ▸ h.1
          · exact t.parent_directory m k f hm
        rw [Std.ExtTreeMap.getElem?_insert]
        split
        · next heq =>
          have := Std.LawfulEqCmp.eq_of_compare heq
          exact absurd (this ▸ hk) h.2
        · exact hk }
  else t

/-- Whether `k` is `l` or lies below it. -/
def atOrBelow (l k : Location) : Bool :=
  l.isSuffixOf k

def below (l k : Location) : Bool :=
  l.isSuffixOf k && k ≠ l

/-- Removes the entries that `drop` selects. A selection that takes a directory must take everything
    in it, and the root stays. -/
private def without (t : FileTree) (drop : Location → Bool) (hroot : drop [] = false)
    (hbelow : ∀ n l, drop l = true → drop (n :: l) = true) : FileTree where
  entries := t.entries.filter fun k _ => !drop k
  root_directory := by
    rw [Std.ExtTreeMap.getElem?_filter']
    simp [t.root_directory, hroot]
  parent_directory n l e h := by
    rw [Std.ExtTreeMap.getElem?_filter'] at h ⊢
    simp only [Option.filter_eq_some_iff, Bool.not_eq_true'] at h ⊢
    refine ⟨t.parent_directory n l e h.1, ?_⟩
    cases hl : drop l with
    | false => rfl
    | true =>
      have hn := hbelow n l hl
      rw [h.2] at hn
      cases hn

def clear (t : FileTree) (l : Location) : FileTree :=
  t.without (below l) (by cases l <;> simp [below]) (by
    intro n k h
    simp only [below, Bool.and_eq_true, decide_eq_true_eq, List.isSuffixOf_iff_suffix] at h ⊢
    refine ⟨h.1.trans (List.suffix_cons n k), ?_⟩
    intro heq
    have hle := h.1.length_le
    rw [← heq] at hle
    simp only [List.length_cons] at hle
    omega)

/-- Removes `l` and everything below it; the root stays. -/
def prune (t : FileTree) (l : Location) : FileTree :=
  if h : l = [] then t
  else t.without (atOrBelow l) (by
      simp only [atOrBelow]
      cases hl : l.isSuffixOf [] with
      | false => rfl
      | true => exact absurd (List.suffix_nil.1 (List.isSuffixOf_iff_suffix.1 hl)) h) (by
    intro n k hk
    simp only [atOrBelow, List.isSuffixOf_iff_suffix] at hk ⊢
    exact hk.trans (List.suffix_cons n k))

private theorem get?_without {t : FileTree} {drop : Location → Bool} {hroot hbelow}
    (k : Location) :
    (t.without drop hroot hbelow).get? k = if drop k = true then none else t.get? k := by
  simp only [without, get?, Std.ExtTreeMap.getElem?_filter']
  cases hk : t.entries[k]? <;> cases hd : drop k <;> simp

theorem get?_put {t : FileTree} {n : Name} {l : Location} {e : Entry}
    (h : t.hasPlace n l = true) (k : Location) :
    (t.put n l e).get? k = if k = n :: l then some e else t.get? k := by
  simp only [put, h, dite_true, get?, Std.ExtTreeMap.getElem?_insert,
    Std.LawfulEqCmp.compare_eq_iff_eq]
  by_cases hk : k = n :: l
  · simp [hk]
  · simp [hk, Ne.symm hk]

theorem get?_put_of_ne {t : FileTree} {n : Name} {l k : Location} {e : Entry} (hk : k ≠ n :: l) :
    (t.put n l e).get? k = t.get? k := by
  by_cases h : t.hasPlace n l = true
  · rw [get?_put h, if_neg hk]
  · rw [put, dif_neg h]

theorem get?_clear (t : FileTree) (l k : Location) :
    (t.clear l).get? k = if l <:+ k ∧ k ≠ l then none else t.get? k := by
  rw [clear, get?_without]
  simp [below]

theorem get?_prune {t : FileTree} {l : Location} (h : l ≠ []) (k : Location) :
    (t.prune l).get? k = if l <:+ k then none else t.get? k := by
  rw [prune, dif_neg h, get?_without]
  simp [atOrBelow]

def entriesBelow (t : FileTree) (l : Location) : List (Location × Entry) :=
  t.entries.toList.filter fun e => below l e.1

def names (t : FileTree) (l : Location) : List Name :=
  t.entries.toList.filterMap fun e =>
    match e.1 with
    | n :: k => if k = l then some n else none
    | [] => none

theorem mem_names {t : FileTree} {n : Name} {l : Location} :
    n ∈ t.names l ↔ ∃ e, t.get? (n :: l) = some e := by
  simp only [names, List.mem_filterMap]
  constructor
  · rintro ⟨⟨k, e⟩, hmem, hk⟩
    cases k with
    | nil => simp at hk
    | cons m k =>
      simp only [Option.ite_none_right_eq_some, Option.some.injEq] at hk
      obtain ⟨rfl, rfl⟩ := hk
      exact ⟨e, Std.ExtTreeMap.mem_toList_iff_getElem?_eq_some.1 hmem⟩
  · rintro ⟨e, he⟩
    exact ⟨(n :: l, e), Std.ExtTreeMap.mem_toList_iff_getElem?_eq_some.2 he, by simp⟩

def isEmptyDirectory (t : FileTree) (l : Location) : Bool :=
  (t.names l).isEmpty

end FileTree
end DocBuild
