import DocBuild.Toml.Literal
import DocBuild.Toml.Written

namespace DocBuild.Toml

variable {c mark : Char} {s w rest : List Char} {run : Nat}

/-- The ways of writing one character so that a string in double quotes may hold it. -/
inductive Escaped (c : Char) : List Char → Prop where
  | short {e : Char} (hescape : shortEscape? e = some c) : Escaped c ['\\', e]
  | code {x y u v : Char} (hcode : codePoint? [x, y, u, v] = some c) :
      Escaped c ['\\', 'u', x, y, u, v]
  | plain (hvisible : isVisible c = true) (hmark : c ≠ '"') (hback : c ≠ '\\') : Escaped c [c]

theorem codePoint?_codeEscape :
    ∀ n < 0x80, codePoint? ((codeEscape (Char.ofNat n)).drop 2) = some (Char.ofNat n) := by
  decide +kernel

theorem lt_of_isControl (h : isControl c = true) : c.toNat < 0x80 := by
  simp only [isControl, Bool.or_eq_true, Bool.and_eq_true, decide_eq_true_eq] at h
  omega

theorem isVisible_of_not_isControl (h : isControl c = false) (hline : c ≠ '\n') :
    isVisible c = true := by
  simp only [isControl, Bool.or_eq_false_iff, Bool.and_eq_false_iff, decide_eq_false_iff_not] at h
  simp only [isVisible, Bool.or_eq_true, Bool.and_eq_true, decide_eq_true_eq]
  by_cases htab : c = '\t'
  · exact .inl htab
  · exact .inr (by simp_all)

theorem escaped_escapeBasic (hmark : c ≠ '"') (hline : c ≠ '\n') : Escaped c (escapeBasic c) := by
  unfold escapeBasic
  split
  · exact .short rfl
  · exact .short rfl
  · exact .short rfl
  · exact .short rfl
  · exact .short rfl
  next hback =>
  split
  · next hcontrol =>
    have hcode := codePoint?_codeEscape c.toNat (lt_of_isControl hcontrol)
    rw [Char.ofNat_toNat] at hcode
    exact .code hcode
  · next hcontrol =>
    exact .plain (isVisible_of_not_isControl (by simpa using hcontrol) hline) hmark hback

/-- An escape is not taken for a code point, nor its backslash for the end of a line. -/
theorem shortEscape?_eq_some {e : Char} (h : shortEscape? e = some c) (s : List Char) :
    e ≠ 'u' ∧ e ≠ 'U' ∧ endsLine (e :: s) = false := by
  unfold shortEscape? at h
  split at h <;> first | exact ⟨by decide, by decide, rfl⟩ | cases h

/-- Neither a line feed nor a carriage return stands for itself. -/
theorem isVisible_ne (h : isVisible c = true) : c ≠ '\n' ∧ c ≠ '\r' := by
  constructor <;> rintro rfl <;> cases h

theorem basic_of_escaped (h : Escaped c w) : basic (w ++ s) = prepend c (basic s) := by
  cases h with
  | short hescape =>
    obtain ⟨hu, hU, -⟩ := shortEscape?_eq_some hescape s
    simp [basic, hescape, hu, hU]
  | code hcode => simp [basic, hcode]
  | plain hvisible _ hback => simp [basic, hvisible, hback]

theorem multiBasic_of_escaped (h : Escaped c w) :
    multiBasic false (w ++ s) = prepend c (multiBasic false s) := by
  cases h with
  | short hescape =>
    obtain ⟨hu, hU, hend⟩ := shortEscape?_eq_some hescape s
    simp [multiBasic, hescape, hu, hU, hend]
  | code hcode => simp [multiBasic, hcode]
  | plain hvisible hmark hback =>
    obtain ⟨hline, hreturn⟩ := isVisible_ne hvisible
    simp [multiBasic, hvisible, hback, hreturn]

theorem basicBody_cons (c : Char) (s : List Char) :
    ∃ w, Escaped c w ∧ basicBody (c :: s) = w ++ basicBody s := by
  by_cases hmark : c = '"'
  · subst hmark
    exact ⟨['\\', '"'], .short rfl, rfl⟩
  by_cases hline : c = '\n'
  · subst hline
    exact ⟨['\\', 'n'], .short rfl, rfl⟩
  · exact ⟨escapeBasic c, escaped_escapeBasic hmark hline, basicBody.eq_4 c s hmark hline⟩

theorem basic_basicBody (s rest : List Char) :
    basic (basicBody s ++ '"' :: rest) = some (s, rest) := by
  induction s with
  | nil => simp [basicBody, basic]
  | cons c s ih =>
    obtain ⟨w, hescaped, hbody⟩ := basicBody_cons c s
    rw [hbody, List.append_assoc, basic_of_escaped hescaped, ih]
    rfl

theorem literal_append (hvisible : ∀ c ∈ s, isVisible c = true) (hmark : '\'' ∉ s) :
    literal (s ++ '\'' :: rest) = some (s, rest) := by
  induction s with
  | nil => simp [literal]
  | cons c s ih =>
    have hne : c ≠ '\'' := fun h => hmark (h ▸ List.mem_cons_self ..)
    rw [List.cons_append, literal, if_pos (hvisible c (List.mem_cons_self ..)),
      ih (fun d hd => hvisible d (List.mem_cons_of_mem _ hd))
        fun h => hmark (List.mem_cons_of_mem _ h)]
    · rfl
    · exact hne

/-- How many marks a text begins with. -/
def leading (mark : Char) (s : List Char) : Nat :=
  (s.takeWhile (· = mark)).length

@[simp] theorem leading_nil : leading mark [] = 0 := rfl

@[simp] theorem leading_cons_self : leading mark (mark :: s) = leading mark s + 1 := by
  simp [leading]

theorem leading_cons_of_ne (h : c ≠ mark) : leading mark (c :: s) = 0 := by
  simp [leading, h]

theorem leading_of_head (h : rest.head? ≠ some mark) : leading mark rest = 0 := by
  cases rest with
  | nil => rfl
  | cons c rest => exact leading_cons_of_ne (by simpa using h)

theorem leading_replicate_append (n : Nat) (h : rest.head? ≠ some mark) :
    leading mark (List.replicate n mark ++ rest) = n := by
  induction n with
  | zero => exact leading_of_head h
  | succ n ih => rw [List.replicate_succ, List.cons_append, leading_cons_self, ih]

theorem leading_append (hend : w.all (· = mark) = false) :
    leading mark (w ++ s) = leading mark w := by
  induction w with
  | nil => cases hend
  | cons c w ih =>
    by_cases hc : c = mark
    · subst hc
      rw [List.cons_append, leading_cons_self, leading_cons_self, ih (by simpa using hend)]
    · rw [List.cons_append, leading_cons_of_ne hc, leading_cons_of_ne hc]

/-- Where a text with at most two marks at its start stands before three marks, the string ends only
    when the text consists of marks. -/
theorem closing?_append (hrun : leading mark w ≤ 2) (hrest : rest.head? ≠ some mark) :
    closing? mark (w ++ mark :: mark :: mark :: rest) =
      if w.all (· = mark) then some (w, rest) else none := by
  have hdef (s : List Char) : closing? mark s =
      if leading mark s < 3 then none
      else some (List.replicate (min (leading mark s - 3) 2) mark,
        s.drop (min (leading mark s - 3) 2 + 3)) := rfl
  split
  · next hall =>
    obtain ⟨n, rfl⟩ : ∃ n, w = List.replicate n mark :=
      ⟨w.length, List.eq_replicate_of_mem fun c hc => by simpa using List.all_eq_true.1 hall c hc⟩
    have hmarks : List.replicate n mark ++ mark :: mark :: mark :: rest =
        List.replicate (n + 3) mark ++ rest := by
      rw [← List.replicate_append_replicate, List.append_assoc]
      rfl
    have hn : n ≤ 2 := by
      rwa [← List.append_nil (List.replicate n mark), leading_replicate_append n (by simp)] at hrun
    have hinner : min (n + 3 - 3) 2 = n := by omega
    rw [hdef, hmarks, leading_replicate_append _ hrest, if_neg (by omega), hinner,
      List.drop_left' List.length_replicate]
  · next hall => rw [hdef, leading_append (by simpa using hall), if_pos (by omega)]

theorem hasTriple_tail (h : hasTriple mark (c :: s) = false) : hasTriple mark s = false := by
  match s with
  | [] | [_] => rfl
  | a :: b :: s => exact (Bool.or_eq_false_iff.1 h).2

theorem leading_of_not_hasTriple (h : hasTriple mark s = false) : leading mark s ≤ 2 := by
  match s with
  | [] => simp
  | [a] | [a, b] => exact Nat.le_trans (List.takeWhile_sublist _).length_le (by simp)
  | a :: b :: c :: s =>
    have hthree := (Bool.or_eq_false_iff.1 h).1
    simp only [leading, List.takeWhile_cons]
    grind

theorem multiLiteral_append (hmark : hasTriple '\'' s = false)
    (hvisible : ∀ c ∈ s, isVisible c = true ∨ c = '\n') (hrest : rest.head? ≠ some '\'') :
    multiLiteral (s ++ '\'' :: '\'' :: '\'' :: rest) = some (s, rest) := by
  induction s with
  | nil =>
    have hclosing := closing?_append (w := []) (by simp) hrest
    simp only [List.nil_append] at hclosing ⊢
    simp [multiLiteral, hclosing]
  | cons c s ih =>
    have htail := ih (hasTriple_tail hmark) fun d hd => hvisible d (List.mem_cons_of_mem _ hd)
    by_cases hc : c = '\''
    · subst hc
      have hclosing := closing?_append (leading_of_not_hasTriple hmark) hrest
      rw [List.cons_append] at hclosing ⊢
      rw [multiLiteral, hclosing]
      split
      · next hends => split at hends <;> simp_all
      · rw [htail]
        rfl
    · have hreturn : c ≠ '\r' := by
        rintro rfl
        rcases hvisible _ (List.mem_cons_self ..) with h | h <;> cases h
      have hhere : (isVisible c || decide (c = '\n')) = true := by
        simpa using hvisible c (List.mem_cons_self ..)
      rw [List.cons_append, multiLiteral, if_pos hhere, htail]
      · rfl
      · exact fun _ h => absurd h hreturn
      · exact hc

/-- In the body of a string of several lines a character is written as it is or escaped. -/
theorem multiBasicBody_cons (run : Nat) (hmark : c ≠ '"') (s : List Char) :
    multiBasicBody run (c :: s) =
      (if c = '\n' then ['\n'] else escapeBasic c) ++ multiBasicBody 0 s := by
  split
  · next hline =>
    subst hline
    rfl
  · next hline => exact multiBasicBody.eq_4 run c s hmark hline

/-- An escape begins with a backslash, and what stands for itself is no mark. -/
theorem Escaped.begins (h : Escaped c w) :
    ∃ first more, w = first :: more ∧ first ≠ '"' ∧ isVisible first = true := by
  cases h with
  | short _ | code _ => exact ⟨_, _, rfl, by decide, by decide⟩
  | plain hvisible hmark _ => exact ⟨_, _, rfl, hmark, hvisible⟩

theorem multiBasicBody_cons_begins (run : Nat) (hmark : c ≠ '"') (s : List Char) :
    ∃ first more, multiBasicBody run (c :: s) = first :: more ∧ first ≠ '"' ∧
      (c ≠ '\n' → isVisible first = true) := by
  rw [multiBasicBody_cons run hmark]
  split
  · next hline => exact ⟨_, _, rfl, by decide, fun h => absurd hline h⟩
  · next hline =>
    obtain ⟨first, more, hbegins, hfirst, hvisible⟩ := (escaped_escapeBasic hmark hline).begins
    exact ⟨first, more ++ multiBasicBody 0 s, by rw [hbegins, List.cons_append], hfirst,
      fun _ => hvisible⟩

/-- Behind `run` marks at most two in all are written without an escape. -/
theorem leading_multiBasicBody (hrun : run ≤ 2) : leading '"' (multiBasicBody run s) ≤ 2 - run := by
  induction s generalizing run with
  | nil => simp [multiBasicBody]
  | cons c s ih =>
    by_cases hmark : c = '"'
    · subst hmark
      rw [multiBasicBody]
      split
      · rw [leading_cons_of_ne (by decide)]
        exact Nat.zero_le _
      · have hnext : leading '"' (multiBasicBody (run + 1) s) ≤ 2 - (run + 1) := ih (by omega)
        rw [leading_cons_self]
        omega
    · obtain ⟨first, more, hbody, hfirst, -⟩ := multiBasicBody_cons_begins run hmark s
      rw [hbody, leading_cons_of_ne hfirst]
      exact Nat.zero_le _

/-- A body of nothing but marks is the string itself. -/
theorem multiBasicBody_of_marks (hall : (multiBasicBody run s).all (· = '"') = true) :
    multiBasicBody run s = s := by
  induction s generalizing run with
  | nil => rfl
  | cons c s ih =>
    by_cases hmark : c = '"'
    · subst hmark
      rw [multiBasicBody] at hall ⊢
      split at hall
      · simp at hall
      · next hrun =>
        rw [if_neg hrun, ih (by simpa using hall)]
    · obtain ⟨first, more, hbody, hfirst, -⟩ := multiBasicBody_cons_begins run hmark s
      simp [hbody, hfirst] at hall

theorem multiBasic_multiBasicBody (hrun : run ≤ 2) (hrest : rest.head? ≠ some '"') :
    multiBasic false (multiBasicBody run s ++ '"' :: '"' :: '"' :: rest) = some (s, rest) := by
  induction s generalizing run with
  | nil =>
    have hclosing := closing?_append (w := []) (by simp) hrest
    simp only [List.nil_append] at hclosing
    simp [multiBasicBody, multiBasic, hclosing]
  | cons c s ih =>
    by_cases hmark : c = '"'
    · subst hmark
      by_cases hfull : run = 2
      · rw [multiBasicBody, if_pos hfull]
        have hescaped : Escaped '"' ['\\', '"'] := .short rfl
        have hread := multiBasic_of_escaped
          (s := multiBasicBody 0 s ++ '"' :: '"' :: '"' :: rest) hescaped
        rw [ih (Nat.zero_le 2)] at hread
        exact hread
      · have hnext : multiBasic false (multiBasicBody (run + 1) s ++ '"' :: '"' :: '"' :: rest) =
            some (s, rest) := ih (by omega)
        have hclosing := closing?_append
          (Nat.le_trans (leading_multiBasicBody (s := '"' :: s) hrun) (Nat.sub_le 2 run)) hrest
        have hmarks (hall : (multiBasicBody run ('"' :: s)).all (· = '"') = true) :=
          multiBasicBody_of_marks hall
        rw [multiBasicBody, if_neg hfull] at hclosing hmarks ⊢
        rw [List.cons_append] at hclosing ⊢
        rw [multiBasic, hclosing]
        split
        · next hends =>
          split at hends
          · next hall =>
            rw [hmarks hall] at hends
            simp_all
          · cases hends
        · rw [hnext]
          rfl
    · rw [multiBasicBody_cons run hmark, List.append_assoc]
      split
      · next hline =>
        subst hline
        simp [multiBasic, ih (Nat.zero_le 2), prepend]
      · next hline =>
        rw [multiBasic_of_escaped (escaped_escapeBasic hmark hline), ih (Nat.zero_le 2)]
        rfl

/-- What follows a string does not go on with a quotation mark. -/
def Unquoted (rest : List Char) : Prop :=
  rest.head? ≠ some '"' ∧ rest.head? ≠ some '\''

theorem isVisible_of_plain (hplain : (!s.any isControl) = true) (hc : c ∈ s) (hline : c ≠ '\n') :
    isVisible c = true := by
  simp only [Bool.not_eq_true', List.any_eq_false] at hplain
  exact isVisible_of_not_isControl (by simpa using hplain c hc) hline

theorem of_eq_literal (h : StringForm.of s = .literal) :
    (∀ c ∈ s, isVisible c = true) ∧ '\'' ∉ s ∧ s ≠ [] := by
  unfold StringForm.of at h
  dsimp only at h
  split at h
  · cases h
  next hbasic =>
  split at h
  · next hfits =>
    simp only [Bool.and_eq_true, Bool.not_eq_true', List.contains_eq_mem,
      decide_eq_false_iff_not] at hfits
    obtain ⟨⟨hplain, hline⟩, hmark⟩ := hfits
    refine ⟨fun c hc => isVisible_of_plain (by simpa using hplain) hc fun h => hline (h ▸ hc),
      hmark, ?_⟩
    rintro rfl
    exact hbasic rfl
  split at h
  · cases h
  split at h
  · cases h
  split at h <;> cases h

theorem of_eq_multiLiteral (h : StringForm.of s = .multiLiteral) :
    (∀ c ∈ s, isVisible c = true ∨ c = '\n') ∧ hasTriple '\'' s = false := by
  unfold StringForm.of at h
  dsimp only at h
  split at h
  · cases h
  split at h
  · cases h
  split at h
  · cases h
  split at h
  · next hfits =>
    rw [Bool.and_eq_true, Bool.not_eq_true' (hasTriple _ _)] at hfits
    refine ⟨fun c hc => ?_, hfits.2⟩
    by_cases hline : c = '\n'
    · exact .inr hline
    · exact .inl (isVisible_of_plain hfits.1 hc hline)
  split at h <;> cases h

theorem newline?_of_isVisible (h : isVisible c = true) : newline? (c :: s) = none := by
  obtain ⟨hline, hreturn⟩ := isVisible_ne h
  simp [newline?, hline, hreturn]

/-- The line break that opens a string of several lines is the only one that is dropped. -/
theorem dropNewline_opening {text : List Char} (h : '\n' ∉ s → newline? text = none) :
    dropNewline (opening s ++ text) = text := by
  unfold opening
  split
  · rfl
  · next hline => simp [dropNewline, h (by simpa using hline)]

theorem newline?_multiBasicBody (hline : '\n' ∉ s) :
    newline? (multiBasicBody 0 s ++ '"' :: rest) = none := by
  cases s with
  | nil => rfl
  | cons c s =>
    by_cases hmark : c = '"'
    · subst hmark
      rfl
    · obtain ⟨first, more, hbody, -, hvisible⟩ := multiBasicBody_cons_begins 0 hmark s
      rw [hbody]
      exact newline?_of_isVisible (hvisible fun h => hline (h ▸ List.mem_cons_self ..))

/-- Every string is read as it was written. -/
theorem stringLiteral_writeString (s : List Char) (hrest : Unquoted rest) :
    stringLiteral (writeString s ++ rest) = some (s, rest) := by
  unfold writeString
  split
  · have hread := basic_basicBody s rest
    have hbegins : ∀ more, basicBody s ++ '"' :: rest ≠ '"' :: '"' :: more := by
      intro more
      cases s with
      | nil =>
        have hnot := hrest.1
        rintro h
        simp [basicBody] at h
        simp [h] at hnot
      | cons c s =>
        obtain ⟨w, hescaped, hbody⟩ := basicBody_cons c s
        obtain ⟨first, tail, rfl, hfirst, -⟩ := hescaped.begins
        simp [hbody, hfirst]
    simp only [List.cons_append, List.append_assoc, List.nil_append]
    rw [stringLiteral]
    · exact hread
    · exact fun more h => hbegins more h
  · next hform =>
    obtain ⟨hvisible, hmark, hne⟩ := of_eq_literal hform
    simp only [List.cons_append, List.append_assoc, List.nil_append]
    rw [stringLiteral, literal_append hvisible hmark]
    intro more h
    cases s with
    | nil => exact hne rfl
    | cons c s =>
      obtain ⟨rfl, -⟩ := List.cons.inj h
      exact hmark (List.mem_cons_self ..)
  · simp only [List.cons_append, List.append_assoc, List.nil_append]
    rw [stringLiteral, dropNewline_opening newline?_multiBasicBody,
      multiBasic_multiBasicBody (Nat.zero_le 2) hrest.1]
  · next hform =>
    obtain ⟨hvisible, hmark⟩ := of_eq_multiLiteral hform
    simp only [List.cons_append, List.append_assoc, List.nil_append]
    rw [stringLiteral, dropNewline_opening, multiLiteral_append hmark hvisible hrest.2]
    intro hline
    cases s with
    | nil => rfl
    | cons c s =>
      have hc := List.mem_cons_self (a := c) (l := s)
      exact newline?_of_isVisible ((hvisible c hc).resolve_right fun h => hline (h ▸ hc))

end DocBuild.Toml
