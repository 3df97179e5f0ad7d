import Mathlib.Data.List.DropRight
import DocBuild.Proofs.Path.Place

namespace DocBuild

namespace Bytes

/-- Pieces without a separator are found again between the separators. -/
theorem splitOn_intercalate {sep : UInt8} {pieces : List Bytes} (hne : pieces ≠ [])
    (hfree : ∀ piece ∈ pieces, sep ∉ piece) : splitOn sep (intercalate sep pieces) = pieces := by
  have hsingle : ∀ piece : Bytes, sep ∉ piece → splitOn sep piece = [piece] := by
    intro piece hpiece
    induction piece with
    | nil => rfl
    | cons b piece ih =>
      rw [List.mem_cons, not_or] at hpiece
      rw [splitOn, if_neg fun h => hpiece.1 h.symm, ih hpiece.2]
  induction pieces with
  | nil => exact absurd rfl hne
  | cons piece pieces ih =>
    have hpiece := hsingle piece (hfree piece (List.mem_cons_self ..))
    cases pieces with
    | nil => exact hpiece
    | cons next pieces =>
      rw [intercalate, splitOn_append_cons, hpiece,
        ih (List.cons_ne_nil next pieces) fun p hp => hfree p (List.mem_cons_of_mem piece hp)]
      · rfl
      · simp

end Bytes

namespace Path

open Bytes (slash dot)

theorem dropLastWhile_eq_rdropWhile {α : Type} (test : α → Bool) (xs : List α) :
    dropLastWhile test xs = xs.rdropWhile test := rfl

theorem filter_dropLastWhile {α : Type} (test : α → Bool) (xs : List α) :
    (dropLastWhile test xs).filter (fun x => !test x) = xs.filter fun x => !test x := by
  rw [dropLastWhile_eq_rdropWhile]
  have hdropped : (xs.rtakeWhile test).filter (fun x => !test x) = [] := by
    refine List.filter_eq_nil_iff.2 fun x hx => ?_
    simp [List.mem_rtakeWhile_imp hx]
  have hsplit := congrArg (List.filter fun x => !test x)
    (List.rdropWhile_append_rtakeWhile (p := test) (l := xs))
  rwa [List.filter_append, hdropped, List.append_nil] at hsplit

/-- The segments of the parent: what stands before the last name. -/
def parentSegments (segments : List Bytes) : List Bytes :=
  dropLastWhile isBlank (dropLastWhile isBlank segments).dropLast

theorem filter_parentSegments {segments : List Bytes} (hne : dropLastWhile isBlank segments ≠ []) :
    ∃ x, (segments.filter fun s => !isBlank s) =
      ((parentSegments segments).filter fun s => !isBlank s) ++ [x] := by
  have hlast : ¬ isBlank ((dropLastWhile isBlank segments).getLast hne) = true :=
    List.rdropWhile_last_not isBlank segments hne
  refine ⟨(dropLastWhile isBlank segments).getLast hne, ?_⟩
  rw [parentSegments, filter_dropLastWhile, ← filter_dropLastWhile isBlank segments]
  conv_lhs => rw [← List.dropLast_append_getLast hne, List.filter_append]
  rw [List.filter_cons_of_pos (by simpa using hlast), List.filter_nil]

theorem eq_parentSegments_append (segments : List Bytes) :
    ∃ back, segments = parentSegments segments ++ back := by
  have hbegins : parentSegments segments <+: segments :=
    (List.rdropWhile_prefix isBlank _).trans
      ((List.dropLast_prefix _).trans (List.rdropWhile_prefix isBlank _))
  obtain ⟨back, hback⟩ := hbegins
  exact ⟨back, hback.symm⟩

theorem head_parentSegments (segments : List Bytes) :
    parentSegments segments = [] ∨ (parentSegments segments).head? = segments.head? := by
  obtain ⟨back, hback⟩ := eq_parentSegments_append segments
  cases hkept : parentSegments segments with
  | nil => exact .inl rfl
  | cons piece pieces =>
    rw [hback, hkept]
    exact .inr rfl

theorem slash_not_mem_parentSegments {p : Path} {piece : Bytes}
    (h : piece ∈ parentSegments p.segments) : slash ∉ piece := by
  obtain ⟨back, hback⟩ := eq_parentSegments_append p.segments
  refine Bytes.not_mem_of_mem_splitOn (b := p) ?_
  rw [show Bytes.splitOn slash p = _ from hback]
  exact List.mem_append_left back h

theorem names_intercalate {pieces : List Bytes} (hfree : ∀ piece ∈ pieces, slash ∉ piece) :
    names (Bytes.intercalate slash pieces) = pieces.filter fun s => !isBlank s := by
  by_cases hne : pieces = []
  · subst hne
    rfl
  · rw [names, segments, Bytes.splitOn_intercalate hne hfree]

/-- A `.` before a slash is no name. -/
theorem names_dot {p : Path} (h : p = [] ∨ p.isAbsolute = true) : names (dot :: p) = names p := by
  rcases h with rfl | h
  · rfl
  · cases p with
    | nil => cases h
    | cons b p =>
      obtain rfl : b = slash := by simpa [isAbsolute] using h
      have hdot : segments (dot :: slash :: p) = [dot] :: segments p :=
        Bytes.splitOn_append_cons slash [dot] p
      have hempty : segments (slash :: p) = [] :: segments p :=
        Bytes.splitOn_append_cons slash [] p
      rw [names, names, hdot, hempty]
      rfl

theorem isAbsolute_intercalate_of_head {pieces : List Bytes}
    (h : pieces = [] ∨ pieces.head? = some []) :
    Bytes.intercalate slash pieces = [] ∨ isAbsolute (Bytes.intercalate slash pieces) = true := by
  cases pieces with
  | nil => exact .inl rfl
  | cons piece pieces =>
    obtain rfl : piece = [] := by simpa using h
    cases pieces with
    | nil => exact .inl rfl
    | cons next pieces => exact .inr rfl

/-- Only the first of the pieces decides whether they make an absolute path. -/
theorem head_intercalate {pieces : List Bytes} (hfree : ∀ piece ∈ pieces, slash ∉ piece)
    (h : isAbsolute (Bytes.intercalate slash pieces) = true) : pieces.head? = some [] := by
  cases pieces with
  | nil => cases h
  | cons piece pieces =>
    cases piece with
    | nil => rfl
    | cons b piece =>
      have hb : b ≠ slash := fun heq => hfree _ (List.mem_cons_self ..) (heq ▸ List.mem_cons_self ..)
      cases pieces <;> simp [isAbsolute, Bytes.intercalate, hb] at h

theorem head_segments_iff {p : Path} : p.segments.head? = some [] ↔ p = [] ∨ p.isAbsolute = true := by
  cases p with
  | nil => simp [segments, Bytes.splitOn]
  | cons b p =>
    by_cases hb : b = slash
    · subst hb
      simp [segments, Bytes.splitOn, isAbsolute]
    · have hne := Bytes.splitOn_ne_nil slash p
      obtain ⟨piece, pieces, hpieces⟩ := List.exists_cons_of_ne_nil hne
      simp [segments, Bytes.splitOn, isAbsolute, hb, hpieces]

/-- A path that begins here is a `.` and then nothing or a slash. -/
theorem eq_dot_cons {p : Path} (h : p.beginsHere = true) :
    ∃ body : Path, p = dot :: body ∧ (body = [] ∨ body.isAbsolute = true) := by
  have hfirst : p.segments.head? = some [dot] := by simpa [beginsHere] using h
  obtain ⟨rest, hrest⟩ : ∃ rest, p.segments = [dot] :: rest := by
    cases hsegments : p.segments with
    | nil => simp [hsegments] at hfirst
    | cons piece rest =>
      rw [hsegments, List.head?_cons, Option.some.injEq] at hfirst
      exact ⟨rest, by rw [hfirst]⟩
  have hp := Bytes.intercalate_splitOn slash p
  rw [show Bytes.splitOn slash p = [dot] :: rest from hrest] at hp
  cases rest with
  | nil => exact ⟨[], hp.symm, .inl rfl⟩
  | cons piece rest => exact ⟨_, hp.symm, .inr rfl⟩

theorem names_slash (p : Path) : names (slash :: p) = names p := by
  have hempty : segments (slash :: p) = [] :: segments p := Bytes.splitOn_append_cons slash [] p
  rw [names, names, hempty]
  rfl

/-- The parent of a path has the names of the path but for the last. -/
theorem names_parent {p q : Path} (h : p.parent? = some q) (hq : q ≠ []) :
    ∃ x, p.names = q.names ++ [x] ∧ q.isAbsolute = p.isAbsolute := by
  unfold parent? at h
  by_cases habsolute : p.isAbsolute = true
  · obtain ⟨body, rfl⟩ : ∃ body : Path, p = slash :: body := by
      cases p with
      | nil => cases habsolute
      | cons b p => exact ⟨p, by rw [show b = slash by simpa [isAbsolute] using habsolute]⟩
    simp only [habsolute, if_true, Bool.true_or, List.drop_one, List.tail_cons] at h
    split at h
    · cases h
    · next _ hne =>
      obtain ⟨x, hx⟩ := filter_parentSegments hne
      obtain rfl := Option.some.inj h
      refine ⟨x, ?_, habsolute.symm⟩
      have hnames := names_intercalate fun _ => slash_not_mem_parentSegments (p := body)
      rw [List.singleton_append, names_slash, names_slash]
      exact hx.trans (congrArg (· ++ [x]) hnames.symm)
  · by_cases hhere : p.beginsHere = true
    · obtain ⟨body, rfl, hbody⟩ := eq_dot_cons hhere
      simp only [habsolute, hhere, Bool.false_eq_true, if_false, if_true, List.drop_one,
        List.tail_cons, Bool.or_self, Bool.not_true] at h
      split at h
      · cases h
        exact absurd rfl hq
      · next _ hne =>
        obtain ⟨x, hx⟩ := filter_parentSegments hne
        obtain rfl := Option.some.inj h
        refine ⟨x, ?_, rfl⟩
        have hnames := names_intercalate fun _ => slash_not_mem_parentSegments (p := body)
        rw [List.singleton_append, names_dot hbody, names_dot]
        · exact hx.trans (congrArg (· ++ [x]) hnames.symm)
        · refine isAbsolute_intercalate_of_head ((head_parentSegments body.segments).imp_right ?_)
          exact fun hhead => hhead.trans (head_segments_iff.2 hbody)
    · simp only [habsolute, hhere, Bool.false_eq_true, if_false] at h
      split at h
      · cases h
      · next _ hne =>
        obtain ⟨x, hx⟩ := filter_parentSegments hne
        obtain rfl := Option.some.inj h
        have hnames := names_intercalate fun _ => slash_not_mem_parentSegments (p := p)
        refine ⟨x, hx.trans (congrArg (· ++ [x]) hnames.symm), ?_⟩
        refine (eq_false_of_ne_true fun hstarts => ?_).trans (eq_false_of_ne_true habsolute).symm
        have hhead := head_intercalate (fun _ => slash_not_mem_parentSegments (p := p)) hstarts
        rcases head_parentSegments p.segments with hnil | hsame
        · rw [hnil] at hhead
          cases hhead
        · rcases head_segments_iff.1 (hsame.symm.trans hhead) with rfl | hslash
          · exact hne rfl
          · exact habsolute hslash

theorem names_subset_of_parent {p q : Path} (h : p.parent? = some q) : q.names ⊆ p.names := by
  by_cases hq : q = []
  · subst hq
    exact fun x hx => nomatch hx
  · obtain ⟨x, hnames, -⟩ := names_parent h hq
    rw [hnames]
    exact List.subset_append_left q.names [x]

end Path
end DocBuild
