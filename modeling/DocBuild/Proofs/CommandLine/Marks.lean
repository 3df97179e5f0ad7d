import DocBuild.CommandLine.Run
import Mathlib.Data.List.Basic

namespace DocBuild

/-- Splitting a list goes on in the last piece of what stands before. -/
theorem exists_splitOn_append {α : Type} [DecidableEq α] (x : α) (front : List α) :
    ∃ init last, front.splitOn x = init ++ [last] ∧
      ∀ rest : List α, (front ++ rest).splitOn x =
        init ++ (rest.splitOn x).modifyHead (last ++ ·) := by
  induction front with
  | nil =>
    refine ⟨[], [], rfl, fun rest => ?_⟩
    cases hrest : rest.splitOn x <;> simp [hrest]
  | cons a front ih =>
    obtain ⟨init, last, hfront, happend⟩ := ih
    by_cases ha : a = x
    · refine ⟨[] :: init, last, ?_, fun rest => ?_⟩
      · simp [List.splitOn_cons_eq_if_modifyHead, ha, hfront]
      · simp [List.splitOn_cons_eq_if_modifyHead, ha, happend]
    · cases init with
      | nil =>
        refine ⟨[], a :: last, ?_, fun rest => ?_⟩
        · simp [List.splitOn_cons_eq_if_modifyHead, ha, hfront]
        · rw [List.cons_append, List.splitOn_cons_eq_if_modifyHead, if_neg (by simpa using ha),
            happend]
          cases rest.splitOn x <;> simp
      | cons piece init =>
        refine ⟨(a :: piece) :: init, last, ?_, fun rest => ?_⟩
        · simp [List.splitOn_cons_eq_if_modifyHead, ha, hfront]
        · simp [List.splitOn_cons_eq_if_modifyHead, ha, happend]

theorem splitOn_append_of_notMem {α : Type} [DecidableEq α] {x : α} {front : List α} (h : x ∉ front)
    (rest : List α) : (front ++ rest).splitOn x = (rest.splitOn x).modifyHead (front ++ ·) := by
  obtain ⟨init, last, hfront, happend⟩ := exists_splitOn_append x front
  rw [List.splitOn_eq_singleton h] at hfront
  have hlength := congrArg List.length hfront
  obtain rfl : init = [] := by
    apply List.eq_nil_of_length_eq_zero
    simpa using hlength.symm
  obtain rfl : front = last := by simpa using hfront
  exact happend rest

/-- What does not hold an element begins before it. -/
theorem prefix_of_notMem {α : Type} {x : α} {start front back : List α} (hx : x ∉ start)
    (h : start <+: front ++ x :: back) : start <+: front := by
  rcases List.prefix_or_prefix_of_prefix h (List.prefix_append front (x :: back)) with h' | h'
  · exact h'
  · obtain ⟨rest, rfl⟩ := h'
    cases rest with
    | nil => simp
    | cons y rest =>
      have hfirst := List.prefix_append_right_inj front |>.1 h
      obtain ⟨rfl, -⟩ := List.cons_prefix_cons.1 hfirst
      exact absurd (List.mem_append_right front (List.mem_cons_self ..)) hx

theorem Failure.message_builder (program : String) (status : Int) :
    (Failure.builder program status).message =
      s!"build error: `{program}` exited with status {status}" := rfl

/-- The command in one line begins with its program. -/
theorem Command.exists_line (command : Command) (h : command.arguments ≠ []) :
    ∃ more, command.line = command.program ++ (" " ++ more) := by
  have hgrows (arguments : List Bytes) (text : String) :
      ∃ more, arguments.foldl (fun text a => text ++ " " ++ Utf8.lossy a) text = text ++ more := by
    induction arguments generalizing text with
    | nil => exact ⟨"", (String.append_empty).symm⟩
    | cons a arguments ih =>
      obtain ⟨more, hmore⟩ := ih (text ++ " " ++ Utf8.lossy a)
      exact ⟨" " ++ Utf8.lossy a ++ more, by rw [List.foldl_cons, hmore]; simp only [String.append_assoc]⟩
  obtain ⟨a, arguments, harguments⟩ := List.exists_cons_of_ne_nil h
  obtain ⟨more, hmore⟩ := hgrows arguments (command.program ++ " " ++ Utf8.lossy a)
  refine ⟨Utf8.lossy a ++ more, ?_⟩
  rw [Command.line, harguments, List.foldl_cons, hmore]
  simp only [String.append_assoc]

namespace CommandLine

/-- The lines of a text, without the line breaks. What stands behind the last one is a line, too. -/
def linesOf (text : String) : List (List Char) :=
  text.toList.splitOn '\n'

theorem linesOf_ne_nil (text : String) : linesOf text ≠ [] :=
  List.splitOn_ne_nil _ _

theorem linesOf_append_break (front rest : String) :
    linesOf (front ++ "\n" ++ rest) = linesOf front ++ linesOf rest := by
  have hbreak : (front ++ "\n" ++ rest).toList = front.toList ++ '\n' :: rest.toList := by simp
  rw [linesOf, hbreak]
  exact List.splitOn_append_cons_self ..

theorem exists_linesOf_append (front : String) : ∃ init last, linesOf front = init ++ [last] ∧
    ∀ rest, linesOf (front ++ rest) = init ++ (linesOf rest).modifyHead (last ++ ·) := by
  obtain ⟨init, last, hfront, happend⟩ := exists_splitOn_append '\n' front.toList
  refine ⟨init, last, hfront, fun rest => ?_⟩
  rw [linesOf, String.toList_append, happend, linesOf]

/-- A text that breaks no line stands before the first line of what follows it. -/
theorem linesOf_append_of_unbroken {front : String} (h : '\n' ∉ front.toList) (rest : String) :
    linesOf (front ++ rest) = (linesOf rest).modifyHead (front.toList ++ ·) := by
  rw [linesOf, String.toList_append]
  exact splitOn_append_of_notMem h rest.toList

theorem notMem_toString_nat (n : Nat) : '\n' ∉ (toString n).toList := by
  intro hmem
  have hdigit : '\n'.isDigit = true := by
    apply Nat.isDigit_of_mem_toDigits (b := 10) (n := n) (by decide) (by decide)
    simpa [Nat.toString_eq_repr, Nat.repr] using hmem
  exact absurd hdigit (by decide)

/-- The marks by which the end of a build is recognised: a line of it begins with one. -/
inductive Mark where
  | success
  | failure
  /-- The report of an error; its causes follow. -/
  | report
  deriving DecidableEq, Repr

namespace Mark

def text : Mark → String
  | success => "  ✓ "
  | failure => "  ✗ "
  | report => "Error: "

/-- Whether a line begins with the mark. -/
def opens (m : Mark) (line : List Char) : Bool :=
  m.text.toList.isPrefixOf line

/-- How many lines of a text begin with the mark. -/
def count (m : Mark) (text : String) : Nat :=
  (linesOf text).countP m.opens

variable {m : Mark} {front line : List Char}

theorem opens_iff : m.opens line = true ↔ m.text.toList <+: line :=
  List.isPrefixOf_iff_prefix

theorem opens_of_beginning (hfront : m.opens front = true) (h : front <+: line) :
    m.opens line = true :=
  opens_iff.2 ((opens_iff.1 hfront).trans h)

/-- A beginning decides against a mark when neither continues the other. -/
theorem not_opens_of_beginning (hfront : m.opens front = false)
    (hother : front.isPrefixOf m.text.toList = false) (h : front <+: line) : m.opens line = false := by
  refine Bool.eq_false_iff.2 fun hopens => ?_
  rcases List.prefix_or_prefix_of_prefix (opens_iff.1 hopens) h with h' | h'
  · rw [opens_iff.2 h'] at hfront
    cases hfront
  · rw [List.isPrefixOf_iff_prefix.2 h'] at hother
    cases hother

theorem count_empty (m : Mark) : m.count "" = 0 := by
  cases m <;> rfl

theorem count_append_break (m : Mark) (front rest : String) :
    m.count (front ++ "\n" ++ rest) = m.count front + m.count rest := by
  rw [count, linesOf_append_break, List.countP_append, count, count]

/-- Pieces are printed with a line break behind each, so that no line holds two of them. -/
theorem count_join_cons (m : Mark) (piece : String) (pieces : List String) :
    m.count (String.join ((piece :: pieces).map (· ++ "\n"))) =
      m.count piece + m.count (String.join (pieces.map (· ++ "\n"))) := by
  rw [List.map_cons, String.join_cons, count_append_break]

theorem count_join_append (m : Mark) (pieces : List String) (rest : String) :
    m.count (String.join (pieces.map (· ++ "\n")) ++ rest) =
      m.count (String.join (pieces.map (· ++ "\n"))) + m.count rest := by
  induction pieces with
  | nil => simp [count_empty]
  | cons piece pieces ih =>
    rw [count_join_cons, List.map_cons, String.join_cons, String.append_assoc, count_append_break, ih,
      Nat.add_assoc]

theorem count_join_eq_zero {pieces : List String} (h : ∀ piece ∈ pieces, m.count piece = 0) :
    m.count (String.join (pieces.map (· ++ "\n"))) = 0 := by
  induction pieces with
  | nil => exact m.count_empty
  | cons piece pieces ih =>
    rw [count_join_cons, h piece (List.mem_cons_self ..),
      ih fun piece' hpiece => h piece' (List.mem_cons_of_mem _ hpiece)]

/-- Behind an unbroken beginning only the first line of a text is another one. -/
theorem exists_count_append (m : Mark) {front : String} (h : '\n' ∉ front.toList) (rest : String) :
    ∃ line, front.toList <+: line ∧
      m.count (front ++ rest) =
        (if m.opens line then 1 else 0) + (linesOf rest).tail.countP m.opens := by
  obtain ⟨first, others, hlines⟩ := List.exists_cons_of_ne_nil (linesOf_ne_nil rest)
  refine ⟨front.toList ++ first, List.prefix_append _ _, ?_⟩
  rw [count, linesOf_append_of_unbroken h, hlines, List.modifyHead_cons, List.countP_cons,
    Nat.add_comm, List.tail_cons]

end Mark

/-- No line of the text but the first begins with a mark. -/
def Unmarked (text : String) : Prop :=
  ∀ line ∈ (linesOf text).tail, ∀ m : Mark, m.opens line = false

namespace Unmarked

variable {front rest : String}

theorem of_unbroken {text : String} (h : '\n' ∉ text.toList) : Unmarked text := by
  intro line hline
  rw [linesOf, List.splitOn_eq_singleton h] at hline
  cases hline

theorem append (h : '\n' ∉ front.toList) (hrest : Unmarked rest) : Unmarked (front ++ rest) := by
  intro line hline m
  refine hrest line ?_ m
  rw [linesOf_append_of_unbroken h] at hline
  cases hlines : linesOf rest with
  | nil => exact absurd hlines (linesOf_ne_nil rest)
  | cons first others =>
    rw [hlines] at hline
    exact hline

theorem countP_tail (hrest : Unmarked rest) (m : Mark) :
    (linesOf rest).tail.countP m.opens = 0 :=
  List.countP_eq_zero.2 fun line hline => by simp [hrest line hline m]

/-- An unmarked text has a mark exactly if it begins with it. -/
theorem count_append_of_opens (hrest : Unmarked rest) (h : '\n' ∉ front.toList) {m : Mark}
    (hopens : m.opens front.toList = true) : m.count (front ++ rest) = 1 := by
  obtain ⟨line, hline, hcount⟩ := m.exists_count_append h rest
  rw [hcount, hrest.countP_tail, if_pos (m.opens_of_beginning hopens hline)]

theorem count_append_of_not_opens (hrest : Unmarked rest) (h : '\n' ∉ front.toList) {m : Mark}
    (hopens : m.opens front.toList = false) (hother : front.toList.isPrefixOf m.text.toList = false) :
    m.count (front ++ rest) = 0 := by
  obtain ⟨line, hline, hcount⟩ := m.exists_count_append h rest
  rw [hcount, hrest.countP_tail, if_neg (by simp [m.not_opens_of_beginning hopens hother hline])]

end Unmarked

/-- Indenting sets blanks before every line of a text but the first. -/
theorem exists_linesOf_indented (text : String) : ∃ first others,
    linesOf text = first :: others ∧
      linesOf (Notice.indented text) = first :: others.map ("      ".toList ++ ·) := by
  unfold linesOf Notice.indented
  rw [String.toList_ofList]
  induction text.toList with
  | nil => exact ⟨[], [], rfl, rfl⟩
  | cons a rest ih =>
    obtain ⟨first, others, hlines, hindented⟩ := ih
    rw [List.flatMap_cons, List.splitOn_cons_eq_if_modifyHead, hlines]
    by_cases ha : a = '\n'
    · refine ⟨[], first :: others, by simp [ha], ?_⟩
      rw [if_pos ha, List.cons_append, List.splitOn_cons_eq_if_modifyHead, if_pos (beq_self_eq_true _),
        splitOn_append_of_notMem (by decide), hindented]
      rfl
    · refine ⟨a :: first, others, by simp [ha], ?_⟩
      rw [if_neg ha, splitOn_append_of_notMem (by simpa using Ne.symm ha), hindented]
      rfl

theorem Mark.count_causeLine (m : Mark) (number : Nat) (message : String) :
    m.count (Notice.causeLine number message) = 0 := by
  have hindented : Unmarked (Notice.indented message) := by
    obtain ⟨first, others, -, hlines⟩ := exists_linesOf_indented message
    intro line hline m
    rw [hlines] at hline
    obtain ⟨other, -, rfl⟩ := List.mem_map.1 hline
    exact not_opens_of_beginning (by cases m <;> rfl) (by cases m <;> rfl) (List.prefix_append _ other)
  have hfurther : Unmarked (toString number ++ (": " ++ Notice.indented message)) :=
    .append (notMem_toString_nat number) (.append (by decide) hindented)
  have hspelt : Notice.causeLine number message =
      "   " ++ (toString number ++ (": " ++ Notice.indented message)) := by
    simp only [Notice.causeLine, String.append_assoc]
    rfl
  rw [hspelt]
  exact hfurther.count_append_of_not_opens (by decide) (by cases m <;> rfl) (by cases m <;> rfl)

theorem notMem_toString_int (n : Int) : '\n' ∉ (toString n).toList := by
  cases n with
  | ofNat n => exact notMem_toString_nat n
  | negSucc n =>
    have hspelt : toString (Int.negSucc n) = "-" ++ toString (n + 1) := rfl
    rw [hspelt, String.toList_append, List.mem_append, not_or]
    exact ⟨by decide, notMem_toString_nat (n + 1)⟩

theorem toString_eq (text : String) : toString text = text := rfl

/-- A line of a text that begins with a mark after a change at its end has begun with it before. -/
theorem Unmarked.respell {program : String} {more more' : List Char} {x y : Char} {rest rest' : String}
    (h : Unmarked (program ++ rest)) (hrest : rest.toList = x :: more) (hx : x ≠ '\n')
    (hrest' : rest'.toList = y :: more') (hunbroken : '\n' ∉ rest'.toList)
    (hy : ∀ m : Mark, y ∉ m.text.toList) : Unmarked (program ++ rest') := by
  obtain ⟨init, last, -, happend⟩ := exists_linesOf_append program
  have hlines' : linesOf (program ++ rest') = init ++ [last ++ y :: more'] := by
    rw [happend, linesOf, List.splitOn_eq_singleton hunbroken, hrest']
    rfl
  obtain ⟨first, others, hlines⟩ : ∃ first others,
      linesOf (program ++ rest) = init ++ (last ++ x :: first) :: others := by
    obtain ⟨first, others, hmore⟩ := List.exists_cons_of_ne_nil (List.splitOn_ne_nil '\n' more)
    refine ⟨first, others, ?_⟩
    rw [happend, linesOf, hrest, List.splitOn_cons_eq_if_modifyHead, if_neg (by simpa using hx), hmore]
    rfl
  intro line hline m
  rw [Unmarked, hlines] at h
  rw [hlines'] at hline
  cases init with
  | nil => cases hline
  | cons piece init =>
    rcases List.mem_append.1 hline with hline | hline
    · exact h line (List.mem_append_left _ hline) m
    · obtain rfl := List.mem_singleton.1 hline
      refine Bool.eq_false_iff.2 fun hopens => ?_
      have hlast : m.opens last = true :=
        Mark.opens_iff.2 (prefix_of_notMem (hy m) (Mark.opens_iff.1 hopens))
      have hbefore := h (last ++ x :: first) (List.mem_append_right _ (List.mem_cons_self ..)) m
      rw [Mark.opens_of_beginning hlast (List.prefix_append _ _)] at hbefore
      cases hbefore

/-- The message about a failed builder has marks only where the builder's command has them. -/
theorem Unmarked.message {builder : BuilderSection} {sources output : Path}
    (h : Unmarked (builder.command sources output).line) (status : Int) :
    Unmarked ((Failure.builder builder.program status).message ++ ")") := by
  obtain ⟨more, hline⟩ := (builder.command sources output).exists_line (by simp [BuilderSection.command])
  rw [hline] at h
  have hrest : ("` exited with status " ++ (toString status ++ ")")).toList =
      Char.ofNat 96 :: (" exited with status " ++ (toString status ++ ")")).toList := by
    simp only [String.toList_append]
    rfl
  have hunbroken : '\n' ∉ ("` exited with status " ++ (toString status ++ ")")).toList := by
    simp only [String.toList_append, List.mem_append, not_or]
    exact ⟨by decide, notMem_toString_int status, by decide⟩
  have hplain : Unmarked (builder.program ++ ("` exited with status " ++ (toString status ++ ")"))) := by
    have hblank : (" " ++ more).toList = ' ' :: more.toList := by simp
    refine h.respell hblank (by decide) hrest hunbroken fun m => ?_
    cases m <;> decide
  have hmessage : (Failure.builder builder.program status).message ++ ")" =
      "build error: `" ++ (builder.program ++ ("` exited with status " ++ (toString status ++ ")"))) := by
    rw [Failure.message_builder]
    simp only [String.append_assoc, toString_eq]
  rw [hmessage]
  exact hplain.append (by decide)

namespace Mark

variable {v : Variables} {elapsed : Nat}

theorem count_starting (m : Mark) {line : String} (h : Unmarked line) : m.count ("  → " ++ line) = 0 :=
  h.count_append_of_not_opens (by decide) (by cases m <;> rfl) (by cases m <;> rfl)

/-- A report shows its mark once, whatever the messages are. -/
theorem count_report (m : Mark) (causes : List String) :
    m.count (String.join ((Notice.report causes).map (· ++ "\n"))) = if m = .report then 1 else 0 := by
  have hcauses : m.count (String.join ((causes.mapIdx Notice.causeLine).map (· ++ "\n"))) = 0 := by
    refine count_join_eq_zero fun line hline => ?_
    obtain ⟨i, hi, rfl⟩ := List.mem_mapIdx.1 hline
    exact m.count_causeLine i _
  rw [Notice.report, count_join_cons, hcauses]
  cases m <;> rfl

/-- The failure of a builder shows a mark of its own. -/
theorem count_builderFailed_eq (m : Mark) (f : Failure) :
    m.count ((Notice.builderFailed f).text v elapsed) =
      m.count ("  ✗ FAILED: documentation build did not succeed (" ++ (f.message ++ ")")) := by
  have hspelt : s!"  ✗ FAILED: documentation build did not succeed ({f.message})" =
      "  ✗ FAILED: documentation build did not succeed (" ++ (f.message ++ ")") := by
    simp only [String.append_assoc, toString_eq]
  have hend : m.count (String.join (([] : List String).map (· ++ "\n"))) = 0 := m.count_empty
  rw [Notice.text, Notice.lines, hspelt]
  simp only [count_join_cons, count_empty, hend, Nat.zero_add, Nat.add_zero]

theorem count_builderFailed_pos (f : Failure) :
    0 < failure.count ((Notice.builderFailed f).text v elapsed) := by
  have hunbroken : '\n' ∉ "  ✗ FAILED: documentation build did not succeed (".toList := by decide
  obtain ⟨line, hline, hcount⟩ := failure.exists_count_append hunbroken (f.message ++ ")")
  rw [count_builderFailed_eq, hcount, if_pos (opens_of_beginning (by rfl) hline)]
  omega

/-- It shows no other, unless the name of the builder does. -/
theorem count_builderFailed (m : Mark) {f : Failure} (h : Unmarked (f.message ++ ")")) :
    m.count ((Notice.builderFailed f).text v elapsed) = if m = .failure then 1 else 0 := by
  rw [count_builderFailed_eq]
  cases m with
  | failure => exact h.count_append_of_opens (by decide) (by rfl)
  | success | report => exact h.count_append_of_not_opens (by decide) (by rfl) (by rfl)

/-- The summary of a build shows that it has succeeded. -/
theorem count_built_pos (report : BuildReport) (format : String) :
    0 < success.count ((Notice.summary (.built report format)).text v elapsed) := by
  have hmark : success.count "  ✓ Documentation built successfully!" = 1 := by rfl
  rw [Notice.text, Notice.lines, Summary.lines]
  simp only [List.cons_append, count_join_cons, hmark]
  omega

end Mark

end CommandLine
end DocBuild
