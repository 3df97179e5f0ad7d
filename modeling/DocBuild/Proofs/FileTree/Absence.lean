import DocBuild.Proofs.FileTree.Removal

namespace DocBuild.FileTree

variable {r s t : FileTree} {last : Last} {cwd here l : Location} {links : Nat} {p : Path}
  {step : Bytes} {rest steps : List Bytes} {e : Entry}

theorem move_of_partOf (hpart : s.PartOf t) (hlast : last ≠ .create) (here : Location)
    (step : Bytes) (rest : List Bytes) :
    s.move last here step rest = t.move last here step rest ∨
      s.move last here step rest = .error .noEntry := by
  cases hhere : s.get? here with
  | none => exact .inr (by simp only [move, hhere])
  | some e =>
    have hhere' := hpart here e hhere
    cases hnext : s.get? (step :: here) with
    | some f =>
      have hnext' := hpart (step :: here) f hnext
      exact .inl (by simp only [move, hhere, hhere', hnext, hnext'])
    | none =>
      cases e with
      | file | link => exact .inl (by simp only [move, hhere, hhere'])
      | directory =>
        simp only [move, hhere, hhere', hnext, hlast, false_and, if_false]
        split
        · exact .inl rfl
        split
        · exact .inl rfl
        split
        · exact .inl rfl
        · exact .inr rfl

theorem walk_of_partOf (hpart : s.PartOf t) (hlast : last ≠ .create) (links : Nat) (here : Location)
    (steps : List Bytes) :
    s.walk last links here steps = t.walk last links here steps ∨
      s.walk last links here steps = .error .noEntry := by
  induction links, steps using lookup_induction generalizing here with
  | nil links => exact .inl (by rw [walk_nil, walk_nil])
  | cons links step rest ihRest ihLinks =>
    rcases move_of_partOf hpart hlast here step rest with hsame | hmissing
    · cases hmove : t.move last here step rest with
      | error f => exact .inl (by rw [walk_of_error hmove, walk_of_error (hsame.trans hmove)])
      | ok m =>
        cases m with
        | enter m =>
          rw [walk_of_enter hmove, walk_of_enter (hsame.trans hmove)]
          exact ihRest m
        | follow target =>
          cases links with
          | zero =>
            exact .inl (by rw [walk_of_no_links hmove, walk_of_no_links (hsame.trans hmove)])
          | succ links =>
            rw [walk_of_follow hmove, walk_of_follow (hsame.trans hmove)]
            exact ihLinks links _ (Nat.lt_succ_self links) _
    · exact .inr (walk_of_error hmissing)

/-- In a part of a tree a path names what it named in the whole tree, or nothing. -/
theorem entry_same_or_missing (hpart : s.PartOf t) (hlast : last ≠ .create) (cwd : Location)
    (p : Path) :
    s.entry cwd last p = t.entry cwd last p ∨
      s.entry cwd last p = .error (.system .noEntry) := by
  cases hcheck : checkPath p with
  | error f => exact .inl (by simp only [entry, locate, hcheck, bind, Except.bind])
  | ok =>
    rcases walk_of_partOf hpart hlast linkLimit (p.origin cwd) p.steps with hsame | hmissing
    · cases hwalk : t.walk last linkLimit (p.origin cwd) p.steps with
      | error f =>
        exact .inl (by
          simp only [entry, locate, hcheck, hsame, hwalk, bind, Except.bind,
            Sequence.mapError_error])
      | ok l =>
        cases hleft : s.get? l with
        | none =>
          refine .inr ?_
          simp only [entry, locate, hcheck, hsame, hwalk, hleft, bind, Except.bind,
            Sequence.mapError_ok]
          rfl
        | some e =>
          have hwhole := hpart l e hleft
          refine .inl ?_
          simp only [entry, locate, hcheck, hsame, hwalk, hleft, hwhole, bind, Except.bind,
            Sequence.mapError_ok]
    · refine .inr ?_
      simp only [entry, locate, hcheck, hmissing, bind, Except.bind, Sequence.mapError_error]

/-- A path that names nothing names nothing in any part of the tree. -/
theorem entry_missing_of_partOf (hpart : s.PartOf t) (hlast : last ≠ .create)
    (h : t.entry cwd last p = .error (.system .noEntry)) :
    s.entry cwd last p = .error (.system .noEntry) := by
  rcases entry_same_or_missing hpart hlast cwd p with hsame | hmissing
  · rw [hsame, h]
  · exact hmissing

/-- After a removal that succeeds the path names nothing. -/
theorem Removal.missing {removed : Bool} (h : Removal t cwd p (r, .ok removed)) :
    r.entry cwd .keep p = .error (.system .noEntry) := by
  have hpart := h.loses.partOf
  generalize hresult : (r, Except.ok removed) = result at h
  cases h with
  | absent hmissing =>
    cases hresult
    exact hmissing
  | @removed l e hroot hentry _ =>
    cases hresult
    rcases entry_same_or_missing hpart (show Last.keep ≠ .create by decide) cwd p with
      hsame | hmissing
    · have hgone := (entry_eq_ok_iff.1 (hsame.trans hentry)).2
      rw [get?_prune hroot, if_pos (List.suffix_refl l)] at hgone
      cases hgone
    · exact hmissing
  | @emptied l hentry hthrough =>
    cases hresult
    rcases entry_same_or_missing hpart (show Last.keep ≠ .create by decide) cwd p with
      hsame | hmissing
    · exact absurd ((entry_clear_iff hentry).1 (hsame.trans hentry)) hthrough
    · exact hmissing
  | failed _ => cases hresult

/-- The lookup of a path passes nothing that lies strictly below a place. -/
def PassesNothingBelow (t : FileTree) (cwd : Location) (p : Path) (l : Location) : Prop :=
  ∀ v ∈ t.trailOf cwd .keep p, l <:+ v → v = l

instance : Decidable (t.PassesNothingBelow cwd p l) :=
  inferInstanceAs (Decidable (∀ v ∈ t.trailOf cwd .keep p, l <:+ v → v = l))

/-- What a removal that succeeds leaves: the tree as it was where the path named nothing; else the
    tree without what the path named, or, if the path leads through something in that, with the
    emptied directory. -/
theorem Removal.leaves {removed : Bool} (h : Removal t cwd p (r, .ok removed)) :
    (t.entry cwd .keep p = .error (.system .noEntry) ∧ removed = false ∧ r = t) ∨
      ∃ l e, t.entry cwd .keep p = .ok (l, e) ∧ removed = true ∧
        (r.get? l = none ↔ t.PassesNothingBelow cwd p l) ∧
        (t.PassesNothingBelow cwd p l → r = t.prune l) ∧
        (¬ t.PassesNothingBelow cwd p l → r = t.clear l) := by
  generalize hresult : (r, Except.ok removed) = result at h
  cases h with
  | absent hmissing =>
    cases hresult
    exact .inl ⟨hmissing, rfl, rfl⟩
  | @removed l e hroot hentry hdirect =>
    cases hresult
    have hgone : (t.prune l).get? l = none := by rw [get?_prune hroot, if_pos (List.suffix_refl l)]
    exact .inr ⟨l, e, hentry, rfl, iff_of_true hgone hdirect, fun _ => rfl,
      fun h => absurd hdirect h⟩
  | @emptied l hentry hthrough =>
    cases hresult
    have hleft : (t.clear l).get? l = some .directory := by
      rw [get?_clear, if_neg (by simp)]
      exact (entry_eq_ok_iff.1 hentry).2
    refine .inr ⟨l, _, hentry, rfl, iff_of_false ?_ hthrough, fun h => absurd h hthrough,
      fun _ => rfl⟩
    rw [hleft]
    exact Option.some_ne_none _
  | failed _ => cases hresult

/-- A removal that has found nothing leaves the tree as it was. -/
theorem Removal.eq_self (h : Removal t cwd p (r, .ok false)) : r = t := by
  rcases h.leaves with ⟨-, -, hsame⟩ | ⟨l, e, -, hremoved, -⟩
  · exact hsame
  · cases hremoved

/-- A removal that has found something takes something away, if only what the path leads through. -/
theorem Removal.exists_lost (h : Removal t cwd p (r, .ok true)) :
    ∃ k, t.get? k ≠ none ∧ r.get? k = none := by
  rcases h.leaves with ⟨-, hremoved, -⟩ | ⟨l, e, hentry, -, hgone, -, hcleared⟩
  · cases hremoved
  by_cases hdirect : t.PassesNothingBelow cwd p l
  · exact ⟨l, by simp [(entry_eq_ok_iff.1 hentry).2], hgone.2 hdirect⟩
  · obtain rfl := hcleared hdirect
    simp only [PassesNothingBelow, Classical.not_forall] at hdirect
    obtain ⟨v, hv, hbelow, hne⟩ := hdirect
    obtain ⟨f, hf⟩ := exists_of_mem_trailOf hentry hv
    exact ⟨v, by simp [hf], by rw [get?_clear, if_pos ⟨hbelow, hne⟩]⟩

end DocBuild.FileTree
