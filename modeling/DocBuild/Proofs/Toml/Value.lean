import DocBuild.Proofs.Toml.Quotation
import DocBuild.Toml.Reader

namespace DocBuild.Toml

variable {s rest more text : List Char} {fuel : Nat}

/-- A written string begins with a mark. -/
theorem writeString_begins (s : List Char) :
    ∃ mark more, writeString s = mark :: more ∧ (mark = '"' ∨ mark = '\'') := by
  unfold writeString
  split
  · exact ⟨_, _, rfl, .inl rfl⟩
  · exact ⟨_, _, rfl, .inr rfl⟩
  · exact ⟨_, _, rfl, .inl rfl⟩
  · exact ⟨_, _, rfl, .inr rfl⟩

/-- The value of a string, wherever it stands. -/
def textOf (s : List Char) : Value :=
  .string (String.ofList s)

theorem scalar_writeString (s : List Char) (hrest : Unquoted rest) :
    scalar (writeString s ++ rest) = some (textOf s, rest) := by
  have hread := stringLiteral_writeString s hrest
  obtain ⟨mark, more, hbegins, hmark⟩ := writeString_begins s
  rw [hbegins, List.cons_append] at hread ⊢
  rcases hmark with rfl | rfl <;> simp [scalar, hread, textOf]

theorem value_writeString (depth : Nat) (s : List Char) (hrest : Unquoted rest) :
    ∃ span, value depth (writeString s ++ rest) = some (⟨span, textOf s⟩, rest) := by
  have hread := scalar_writeString s hrest
  obtain ⟨mark, more, hbegins, hmark⟩ := writeString_begins s
  rw [hbegins, List.cons_append] at hread ⊢
  cases depth <;> rcases hmark with rfl | rfl <;>
    exact ⟨_, by simp only [value, located, hread]; rfl⟩

theorem skipVoid_writeString (s : List Char) :
    skipVoid (writeString s ++ rest) = writeString s ++ rest := by
  obtain ⟨mark, more, hbegins, hmark⟩ := writeString_begins s
  rw [hbegins, List.cons_append]
  rcases hmark with rfl | rfl <;> simp [skipVoid, skipVoid.go, isBlank]

section Items

variable {element : List Char → Option (Node × List Char)} {item : Node} {items : List Node}
  {behind : List Char}

theorem arrayItems_newline : arrayItems element fuel ('\n' :: s) = arrayItems element fuel s := by
  cases fuel <;> rfl

/-- An array that goes on with a written string has it as its next element. -/
theorem arrayItems_of_comma (hskip : skipVoid text = writeString s ++ more)
    (hitem : element (writeString s ++ more) = some (item, ',' :: behind))
    (hitems : arrayItems element fuel behind = some (items, rest)) :
    arrayItems element (fuel + 1) text = some (item :: items, rest) := by
  obtain ⟨mark, tail, hbegins, hmark⟩ := writeString_begins s
  rw [hbegins, List.cons_append] at hskip hitem
  have hcomma : skipVoid (',' :: behind) = ',' :: behind := rfl
  rcases hmark with rfl | rfl <;> simp [arrayItems, hskip, hitem, hcomma, hitems]

theorem arrayItems_of_close (hskip : skipVoid text = writeString s ++ more)
    (hitem : element (writeString s ++ more) = some (item, ']' :: rest)) :
    arrayItems element (fuel + 1) text = some ([item], rest) := by
  obtain ⟨mark, tail, hbegins, hmark⟩ := writeString_begins s
  rw [hbegins, List.cons_append] at hskip hitem
  have hclose : skipVoid (']' :: rest) = ']' :: rest := rfl
  rcases hmark with rfl | rfl <;> simp [arrayItems, hskip, hitem, hclose]

end Items

/-- The values in a list are those of the strings, in order. -/
def AreTexts (ss : List (List Char)) (items : List Node) : Prop :=
  items.map Located.item = ss.map textOf

/-- A line for each string, indented and ended by a comma, up to the closing bracket. -/
theorem arrayItems_lines (depth : Nat) (ss : List (List Char)) (rest : List Char)
    (hfuel : ss.length < fuel) :
    ∃ items, AreTexts ss items ∧
      arrayItems (value depth) fuel
        (ss.flatMap (fun s => "    ".toList ++ writeString s ++ [',', '\n']) ++ ']' :: rest) =
          some (items, rest) := by
  induction ss generalizing fuel with
  | nil =>
    obtain ⟨fuel, rfl⟩ := Nat.exists_eq_succ_of_ne_zero (Nat.ne_of_gt hfuel)
    exact ⟨[], rfl, rfl⟩
  | cons s ss ih =>
    obtain ⟨fuel, rfl⟩ := Nat.exists_eq_succ_of_ne_zero (Nat.ne_of_gt (Nat.zero_lt_of_lt hfuel))
    obtain ⟨items, htexts, hitems⟩ := ih (Nat.lt_of_succ_lt_succ hfuel)
    simp only [List.flatMap_cons, List.append_assoc, List.cons_append, List.nil_append] at hitems ⊢
    generalize ss.flatMap _ ++ ']' :: rest = more at hitems ⊢
    have hcomma : Unquoted (',' :: '\n' :: more) := by simp [Unquoted]
    obtain ⟨span, hvalue⟩ := value_writeString depth s hcomma
    have hskip : skipVoid ("    ".toList ++ (writeString s ++ ',' :: '\n' :: more)) =
        writeString s ++ ',' :: '\n' :: more :=
      skipVoid_writeString s
    refine ⟨⟨span, textOf s⟩ :: items, congrArg (textOf s :: ·) htexts, ?_⟩
    exact arrayItems_of_comma hskip hvalue (arrayItems_newline.trans hitems)

/-- The lines are long enough to be the fuel of their own reading. -/
theorem length_le_lines (ss : List (List Char)) :
    ss.length ≤ (ss.flatMap fun s => "    ".toList ++ writeString s ++ [',', '\n']).length := by
  induction ss with
  | nil => exact Nat.zero_le _
  | cons s ss ih =>
    simp only [List.flatMap_cons, List.length_append, List.length_cons, List.length_nil] at ih ⊢
    omega

/-- Every list of strings is read as it was written. -/
theorem value_writeStrings (depth : Nat) (ss : List (List Char)) (rest : List Char) :
    ∃ span items, AreTexts ss items ∧
      value (depth + 1) (writeStrings ss ++ rest) = some (⟨span, .array items⟩, rest) := by
  have hvalue (r : List Char) (items : List Node)
      (hitems : arrayItems (value depth) r.length r = some (items, rest)) :
      ∃ span, value (depth + 1) ('[' :: r) = some (⟨span, .array items⟩, rest) :=
    ⟨_, by simp only [value, located, hitems]; rfl⟩
  match ss with
  | [] =>
    obtain ⟨span, hread⟩ := hvalue (']' :: rest) [] rfl
    exact ⟨span, [], rfl, hread⟩
  | [s] =>
    have hclose : Unquoted (']' :: rest) := by simp [Unquoted]
    obtain ⟨span, hvalueOne⟩ := value_writeString depth s hclose
    have hfuel : (writeString s ++ ']' :: rest).length = (writeString s ++ rest).length + 1 := by
      simp [Nat.add_assoc]
    obtain ⟨span', hread⟩ := hvalue (writeString s ++ ']' :: rest) [⟨span, textOf s⟩] <| by
      rw [hfuel]
      exact arrayItems_of_close (skipVoid_writeString s) hvalueOne
    refine ⟨span', [⟨span, textOf s⟩], rfl, ?_⟩
    simpa [writeStrings] using hread
  | s :: s' :: ss =>
    have hwritten : writeStrings (s :: s' :: ss) = '[' :: '\n' ::
        ((s :: s' :: ss).flatMap fun s => "    ".toList ++ writeString s ++ [',', '\n']) ++ [']'] :=
      rfl
    rw [hwritten]
    generalize s :: s' :: ss = all
    have hlines := length_le_lines all
    have hfuel : all.length < ('\n' :: ((all.flatMap fun s =>
        "    ".toList ++ writeString s ++ [',', '\n']) ++ ']' :: rest)).length := by
      simp only [List.length_cons, List.length_append] at hlines ⊢
      omega
    obtain ⟨items, htexts, hitems⟩ := arrayItems_lines depth all rest hfuel
    obtain ⟨span, hread⟩ := hvalue _ items (arrayItems_newline.trans hitems)
    refine ⟨span, items, htexts, ?_⟩
    simpa using hread

end DocBuild.Toml
