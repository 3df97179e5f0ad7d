namespace DocBuild

/-- A sequence of bytes with no promise about its encoding. -/
abbrev Bytes := List UInt8

namespace Bytes

/-- The UTF-8 encoding of a text. -/
def ofString (s : String) : Bytes :=
  s.toUTF8.data.toList

/-- The text that `b` encodes, when `b` is well-formed UTF-8. -/
def toString? (b : Bytes) : Option String :=
  String.fromUTF8? ⟨b.toArray⟩

/-- Encoding loses nothing: the decoder gives the text back. -/
theorem toString?_ofString (s : String) : (ofString s).toString? = some s := by
  simp [toString?, ofString, String.fromUTF8?]
  exact ⟨s.isValidUTF8, rfl⟩

def slash : UInt8 := 0x2f
def dot : UInt8 := 0x2e
def newline : UInt8 := 0x0a
def carriageReturn : UInt8 := 0x0d
def nul : UInt8 := 0

/-- The pieces between the separators; one more piece than there are separators. -/
def splitOn (sep : UInt8) : Bytes → List Bytes
  | [] => [[]]
  | b :: rest =>
    if b = sep then [] :: splitOn sep rest
    else
      match splitOn sep rest with
      | [] => [[b]]
      | piece :: pieces => (b :: piece) :: pieces

/-- The pieces with one separator between neighbours. -/
def intercalate (sep : UInt8) : List Bytes → Bytes
  | [] => []
  | [piece] => piece
  | piece :: pieces => piece ++ sep :: intercalate sep pieces

theorem splitOn_ne_nil (sep : UInt8) (b : Bytes) : splitOn sep b ≠ [] := by
  cases b with
  | nil => simp [splitOn]
  | cons x rest =>
    simp only [splitOn]
    split
    · simp
    · split <;> simp

/-- Splitting drops the separators and nothing else. -/
theorem intercalate_splitOn (sep : UInt8) (b : Bytes) : intercalate sep (splitOn sep b) = b := by
  induction b with
  | nil => rfl
  | cons x rest ih =>
    have hne := splitOn_ne_nil sep rest
    simp only [splitOn]
    split
    · next h =>
      subst h
      cases hs : splitOn x rest with
      | nil => exact absurd hs hne
      | cons piece pieces => rw [← ih, hs]; rfl
    · cases hs : splitOn sep rest with
      | nil => exact absurd hs hne
      | cons piece pieces =>
        rw [hs] at ih
        cases pieces with
        | nil => simpa [intercalate] using ih
        | cons q qs => simpa [intercalate] using ih

/-- No piece holds a separator. -/
theorem not_mem_of_mem_splitOn {sep : UInt8} {b piece : Bytes} (h : piece ∈ splitOn sep b) :
    sep ∉ piece := by
  induction b generalizing piece with
  | nil => simp only [splitOn, List.mem_singleton] at h; simp [h]
  | cons x rest ih =>
    simp only [splitOn] at h
    split at h
    · rcases List.mem_cons.1 h with h | h
      · simp [h]
      · exact ih h
    · next hx =>
      cases hs : splitOn sep rest with
      | nil => exact absurd hs (splitOn_ne_nil sep rest)
      | cons p ps =>
        rw [hs] at h
        rcases List.mem_cons.1 h with h | h
        · subst h
          simp only [List.mem_cons, not_or]
          exact ⟨fun e => hx e.symm, ih (by simp [hs])⟩
        · exact ih (by simp [hs, h])

/-- Cuts a final newline, if there is one. -/
def dropFinal (last : UInt8) (b : Bytes) : Bytes :=
  if b.getLast? = some last then b.dropLast else b

/-- Byte-wise lexicographic order; a proper start of a string comes before it. -/
def le (a b : Bytes) : Bool :=
  compare a b != .gt

end Bytes
end DocBuild
