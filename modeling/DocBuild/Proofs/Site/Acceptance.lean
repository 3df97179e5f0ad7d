import DocBuild.Proofs.Site.Resolution

namespace DocBuild

namespace Bytes

theorem ofString_injective {s s' : String} (h : ofString s = ofString s') : s = s' := by
  have htext := congrArg toString? h
  rw [toString?_ofString, toString?_ofString] at htext
  exact Option.some.inj htext

theorem ofString_ofList (chars : List Char) :
    ofString (String.ofList chars) = chars.flatMap String.utf8EncodeChar := by
  simp [ofString, List.utf8Encode]

theorem ofString_eq (s : String) : ofString s = s.toList.flatMap String.utf8EncodeChar := by
  rw [← ofString_ofList, String.ofList_toList]

/-- No other character is encoded with the byte of a slash. -/
theorem slash_not_mem_utf8EncodeChar {c : Char} (h : c ≠ '/') :
    slash ∉ String.utf8EncodeChar c := by
  have hvalue : c.val.toNat ≠ 47 := fun heq => h (Char.ext (UInt32.toNat_inj.1 heq))
  unfold String.utf8EncodeChar slash
  generalize c.val.toNat = v at hvalue ⊢
  dsimp only
  split
  · simp [← UInt8.toNat_inj]
    omega
  split
  · simp [← UInt8.toNat_inj]
    omega
  split
  · simp [← UInt8.toNat_inj]
    omega
  · simp [← UInt8.toNat_inj]
    omega

/-- Bytes that are no separators belong to the piece in front. -/
theorem splitOn_append {sep : UInt8} {front : Bytes} (h : sep ∉ front) (b : Bytes) :
    splitOn sep (front ++ b) = (splitOn sep b).modifyHead (front ++ ·) := by
  induction front with
  | nil => cases hb : splitOn sep b <;> simp [hb]
  | cons x front ih =>
    obtain ⟨hne, hfront⟩ := not_or.1 fun hmem => h (List.mem_cons.2 hmem)
    rw [List.cons_append, splitOn, if_neg (Ne.symm hne), ih hfront]
    cases hb : splitOn sep b with
    | nil => exact absurd hb (splitOn_ne_nil sep b)
    | cons piece pieces => rfl

/-- A text and its encoding fall into the same pieces. -/
theorem splitOn_flatMap_utf8EncodeChar (chars : List Char) :
    splitOn slash (chars.flatMap String.utf8EncodeChar) =
      (chars.splitOn '/').map (·.flatMap String.utf8EncodeChar) := by
  induction chars with
  | nil => rfl
  | cons c chars ih =>
    rw [List.flatMap_cons, List.splitOn_cons_eq_if_modifyHead]
    by_cases hslash : c = '/'
    · subst hslash
      have hencoded : String.utf8EncodeChar '/' = [slash] := rfl
      rw [hencoded, List.singleton_append, splitOn, if_pos rfl, ih]
      rfl
    · rw [splitOn_append (slash_not_mem_utf8EncodeChar hslash), ih, if_neg (by simpa using hslash)]
      cases hchars : chars.splitOn '/' with
      | nil => exact absurd hchars (List.splitOn_ne_nil _ _)
      | cons piece pieces => simp

end Bytes

namespace LayoutSection

/-- The texts between the slashes of a configured value. -/
def pieces (value : String) : List String :=
  (value.toList.splitOn '/').map String.ofList

/-- The pieces of a configured value that name something. -/
def named (value : String) : List String :=
  (pieces value).filter fun piece => piece ≠ "" ∧ piece ≠ "."

/-- A value with a slash in front, or one that climbs. -/
def Escapes (value : String) : Prop :=
  value.toList.head? = some '/' ∨ ".." ∈ pieces value

instance (value : String) : Decidable (Escapes value) :=
  inferInstanceAs (Decidable (_ ∨ _))

theorem segments_ofString (value : String) :
    Path.segments (Bytes.ofString value) = (pieces value).map Bytes.ofString := by
  rw [Path.segments, Bytes.ofString_eq, Bytes.splitOn_flatMap_utf8EncodeChar, pieces, List.map_map]
  exact List.map_congr_left fun chars _ => (Bytes.ofString_ofList chars).symm

theorem names_ofString (value : String) :
    Path.names (Bytes.ofString value) = (named value).map Bytes.ofString := by
  rw [Path.names, segments_ofString, List.filter_map, named]
  refine congrArg _ (List.filter_congr fun piece _ => ?_)
  have hempty : Bytes.ofString piece = [] ↔ piece = "" :=
    ⟨fun h => Bytes.ofString_injective h, fun h => h ▸ rfl⟩
  have hhere : Bytes.ofString piece = [Bytes.dot] ↔ piece = "." :=
    ⟨fun h => Bytes.ofString_injective h, fun h => h ▸ rfl⟩
  simp [Path.isBlank, hempty, hhere]

theorem isAbsolute_ofString_iff {value : String} :
    Path.isAbsolute (Bytes.ofString value) = true ↔ value.toList.head? = some '/' := by
  rw [Path.isAbsolute, decide_eq_true_iff, Bytes.ofString_eq]
  cases hchars : value.toList with
  | nil => simp
  | cons c chars =>
    by_cases hslash : c = '/'
    · subst hslash
      exact iff_of_true rfl rfl
    · refine iff_of_false (fun h => ?_) (by simpa using hslash)
      obtain ⟨first, rest, hencoded⟩ := List.exists_cons_of_ne_nil (String.utf8EncodeChar_ne_nil (c := c))
      rw [List.flatMap_cons, hencoded] at h
      refine Bytes.slash_not_mem_utf8EncodeChar hslash ?_
      rw [hencoded, ← Option.some.inj h]
      exact List.mem_cons_self

theorem up_mem_segments_ofString_iff {value : String} :
    [Bytes.dot, Bytes.dot] ∈ Path.segments (Bytes.ofString value) ↔ ".." ∈ pieces value := by
  rw [segments_ofString, List.mem_map]
  constructor
  · rintro ⟨piece, hmem, hpiece⟩
    have hup : piece = ".." := Bytes.ofString_injective hpiece
    exact hup ▸ hmem
  · exact fun hmem => ⟨"..", hmem, rfl⟩

theorem inner_ofString_iff {value : String} :
    Path.Inner (Bytes.ofString value) ↔ ¬ Escapes value ∧ named value ≠ [] := by
  rw [Escapes, not_or, ← isAbsolute_ofString_iff, ← up_mem_segments_ofString_iff, Bool.not_eq_true]
  constructor
  · rintro ⟨hrelative, hdown, hnamed⟩
    rw [names_ofString] at hnamed
    exact ⟨⟨hrelative, hdown⟩, fun h => hnamed (by rw [h, List.map_nil])⟩
  · rintro ⟨⟨hrelative, hdown⟩, hnamed⟩
    refine ⟨hrelative, hdown, ?_⟩
    rw [names_ofString]
    exact fun h => hnamed (List.map_eq_nil_iff.1 h)

/-- What a configured value is refused for: first whether it leads out, then whether it names
    anything. -/
def valueFault? (field value : String) : Option String :=
  if Escapes value then
    some s!"{field} = {Text.quoted value} must be a relative path inside the repository"
  else if named value = [] then
    some s!"{field} = {Text.quoted value} must name a directory below the repository root"
  else none

/-- Whether the output directory begins the one of the sources. -/
def coverFault? (field : String) (root : Path) (layout : LayoutSection) : Option String :=
  if named layout.outputDir <+: named layout.configDir then
    let output := root.join (Bytes.ofString layout.outputDir)
    let sources := root.join (Bytes.ofString layout.configDir)
    some s!"{field} = {output.display} would delete the documentation sources in {sources.display}"
  else none

/-- What a layout is refused for in a repository: the first of the three values that is at fault, or
    else an output that covers the sources. -/
def fault? (root : Path) (layout : LayoutSection) : Option String :=
  valueFault? "layout.config_dir" layout.configDir
    <|> valueFault? "layout.generated_dir" layout.generatedDir
    <|> valueFault? "layout.output_dir" layout.outputDir
    <|> coverFault? "layout.output_dir" root layout

/-- The configured values, in the order in which they are checked. -/
def values (layout : LayoutSection) : List String :=
  [layout.configDir, layout.generatedDir, layout.outputDir]

/-- A layout whose deletions stay inside the repository and spare the sources. -/
structure Safe (layout : LayoutSection) : Prop where
  relative : ∀ value ∈ layout.values, value.toList.head? ≠ some '/'
  level : ∀ value ∈ layout.values, ".." ∉ pieces value
  nonempty : ∀ value ∈ layout.values, named value ≠ []
  spares : ¬ named layout.outputDir <+: named layout.configDir

theorem safe_iff {layout : LayoutSection} : layout.Safe ↔
    (∀ value ∈ layout.values, Path.Inner (Bytes.ofString value)) ∧
      ¬ named layout.outputDir <+: named layout.configDir := by
  constructor
  · rintro ⟨hrelative, hlevel, hnonempty, hspares⟩
    refine ⟨fun value hvalue => inner_ofString_iff.2 ⟨?_, hnonempty value hvalue⟩, hspares⟩
    exact not_or.2 ⟨hrelative value hvalue, hlevel value hvalue⟩
  · rintro ⟨hinner, hspares⟩
    have hvalues (value : String) (hvalue : value ∈ layout.values) :=
      inner_ofString_iff.1 (hinner value hvalue)
    exact ⟨fun value hvalue => (not_or.1 (hvalues value hvalue).1).1,
      fun value hvalue => (not_or.1 (hvalues value hvalue).1).2,
      fun value hvalue => (hvalues value hvalue).2, hspares⟩

end LayoutSection

namespace Path

theorem any_leaving_components_iff {p : Path} :
    (p.components.any fun c => c = .root || c = .up) = true ↔
      p.isAbsolute = true ∨ [Bytes.dot, Bytes.dot] ∈ p.segments := by
  constructor
  · intro hany
    refine Classical.byContradiction fun hinside => ?_
    obtain ⟨hrelative, hdown⟩ := not_or.1 hinside
    rw [components_of_relative (Bool.eq_false_iff.2 hrelative) hdown] at hany
    cases hbegin : p.beginsHere <;> simp [hbegin] at hany
  · rintro (habsolute | hup)
    · exact List.any_eq_true.2 ⟨.root, root_mem_components habsolute, rfl⟩
    · exact List.any_eq_true.2 ⟨.up, up_mem_components hup, rfl⟩

theorem all_here_components_iff {p : Path} (hrelative : p.isAbsolute = false)
    (hdown : [Bytes.dot, Bytes.dot] ∉ p.segments) :
    (p.components.all fun c => c = .here) = true ↔ p.names = [] := by
  rw [components_of_relative hrelative hdown]
  cases hnames : p.names <;> cases hbegin : p.beginsHere <;> simp

end Path

namespace Site

open LayoutSection

theorem inner?_eq (field value : String) :
    inner? field value = match valueFault? field value with
      | some m => .error (.validation m)
      | none => .ok (Bytes.ofString value) := by
  have hescapes : ((Path.components (Bytes.ofString value)).any fun c => c = .root || c = .up) = true ↔
      Escapes value := by
    rw [Path.any_leaving_components_iff, isAbsolute_ofString_iff, up_mem_segments_ofString_iff,
      Escapes]
  unfold inner? valueFault?
  dsimp only
  by_cases hout : Escapes value
  · rw [if_pos (hescapes.2 hout), if_pos hout]
  · rw [if_neg (mt hescapes.1 hout), if_neg hout]
    rw [← hescapes, Path.any_leaving_components_iff, not_or, Bool.not_eq_true] at hout
    have hnamed := Path.all_here_components_iff hout.1 hout.2
    rw [names_ofString, List.map_eq_nil_iff] at hnamed
    by_cases hnone : named value = []
    · rw [if_pos (hnamed.2 hnone), if_pos hnone]
    · rw [if_neg (mt hnamed.1 hnone), if_neg hnone]

theorem valueFault?_eq_none_iff {field value : String} :
    valueFault? field value = none ↔ Path.Inner (Bytes.ofString value) := by
  rw [inner_ofString_iff, valueFault?]
  by_cases hout : Escapes value
  · simp [hout]
  · by_cases hnone : named value = [] <;> simp [hout, hnone]

/-- The generated files are never refused for covering the sources, below which they lie. -/
theorem spare_generated (field : String) (root : Path) {sources generated : Path}
    (hsources : sources.Inner) (hgenerated : generated.Inner) :
    spare field ((root.join sources).join generated) (root.join sources) = .ok () := by
  rw [spare_eq_ok_iff, Path.startsWith, ← Bool.not_eq_true, List.isPrefixOf_iff_prefix,
    hgenerated.components_join (hsources.join_ne_nil root)]
  intro hprefix
  have hlength := hprefix.length_le
  rw [List.length_append, List.length_map] at hlength
  have hnamed := List.length_pos_iff.2 hgenerated.named
  omega

/-- The output is refused for covering the sources when its names begin theirs. -/
theorem spare_output (field : String) {root : Path} (hroot : root ≠ []) {layout : LayoutSection}
    (hsources : Path.Inner (Bytes.ofString layout.configDir))
    (houtput : Path.Inner (Bytes.ofString layout.outputDir)) :
    spare field (root.join (Bytes.ofString layout.outputDir))
        (root.join (Bytes.ofString layout.configDir)) =
      match coverFault? field root layout with
      | some m => .error (.validation m)
      | none => .ok () := by
  have hcovers := Path.startsWith_join_iff hroot hsources houtput
  rw [names_ofString, names_ofString,
    List.prefix_map_iff_of_injective fun _ _ => Bytes.ofString_injective] at hcovers
  unfold spare coverFault?
  by_cases hprefix : named layout.outputDir <+: named layout.configDir
  · rw [if_pos (hcovers.2 hprefix), if_pos hprefix]
  · rw [if_neg (mt hcovers.1 hprefix), if_neg hprefix]

/-- The first fault of a layout decides what becomes of it. -/
theorem resolve_eq {root : Path} (hroot : root ≠ []) (layout : LayoutSection) :
    resolve root layout = match fault? root layout with
      | some m => .error (.validation m)
      | none => .ok {
          root
          sources := root.join (Bytes.ofString layout.configDir)
          generated := (root.join (Bytes.ofString layout.configDir)).join
            (Bytes.ofString layout.generatedDir)
          output := root.join (Bytes.ofString layout.outputDir) } := by
  unfold resolve fault?
  rw [inner?_eq, inner?_eq, inner?_eq]
  cases hsources : valueFault? "layout.config_dir" layout.configDir with
  | some m => rfl
  | none =>
  cases hgenerated : valueFault? "layout.generated_dir" layout.generatedDir with
  | some m => rfl
  | none =>
  cases houtput : valueFault? "layout.output_dir" layout.outputDir with
  | some m => rfl
  | none =>
  rw [valueFault?_eq_none_iff] at hsources hgenerated houtput
  simp only [bind, Except.bind, spare_generated "layout.generated_dir" root hsources hgenerated,
    spare_output "layout.output_dir" hroot hsources houtput]
  cases coverFault? "layout.output_dir" root layout <;> rfl

theorem fault?_eq_none_iff {root : Path} {layout : LayoutSection} :
    fault? root layout = none ↔ layout.Safe := by
  have hcover : coverFault? "layout.output_dir" root layout = none ↔
      ¬ named layout.outputDir <+: named layout.configDir := by
    simp [coverFault?]
  rw [safe_iff, fault?]
  simp [hcover, values, valueFault?_eq_none_iff, and_assoc]

/-- The components of a directory that names lead to from a root. -/
def componentsBelow (root : Path) (names : List String) : List Path.Component :=
  root.components ++ names.map fun name => .name (Bytes.ofString name)

/-- A layout is accepted exactly when it is safe, and its directories lie below the root at the names
    that are configured. Otherwise it is refused for its first fault; that the generated files would
    cover the sources is never one of them. -/
theorem resolve_decides_safety {root : Path} (hroot : root ≠ []) (layout : LayoutSection) :
    ((∃ site, resolve root layout = .ok site) ↔ layout.Safe) ∧
    (∀ site, resolve root layout = .ok site → site.root = root ∧
      site.sources.components = componentsBelow root (named layout.configDir) ∧
      site.generated.components =
        componentsBelow root (named layout.configDir ++ named layout.generatedDir) ∧
      site.output.components = componentsBelow root (named layout.outputDir)) ∧
    (∀ f, resolve root layout = .error f ↔
      ∃ m, fault? root layout = some m ∧ f = .validation m) ∧
    ∀ sources generated, inner? "layout.config_dir" layout.configDir = .ok sources →
      inner? "layout.generated_dir" layout.generatedDir = .ok generated →
      spare "layout.generated_dir" ((root.join sources).join generated) (root.join sources) = .ok () := by
  have hresolve := resolve_eq hroot layout
  refine ⟨?_, ?_, ?_, ?_⟩
  · have hfaultless : fault? root layout = none ↔ layout.Safe := fault?_eq_none_iff
    rw [← hfaultless, hresolve]
    cases fault? root layout <;> simp
  · intro site hsite
    obtain ⟨⟨hsources, hgenerated, houtput⟩, -, rfl⟩ := resolve_eq_ok_iff.1 hsite
    have hnames (value : String) : (Path.names (Bytes.ofString value)).map Path.Component.name =
        (named value).map fun name => .name (Bytes.ofString name) := by
      rw [names_ofString, List.map_map]
      rfl
    refine ⟨rfl, ?_, ?_, ?_⟩
    · rw [hsources.components_join hroot, hnames]
      rfl
    · rw [hgenerated.components_join (hsources.join_ne_nil root), hsources.components_join hroot,
        hnames, hnames, List.append_assoc, ← List.map_append]
      rfl
    · rw [houtput.components_join hroot, hnames]
      rfl
  · intro f
    rw [hresolve]
    cases fault? root layout <;> simp [eq_comm]
  · intro sources generated hsources hgenerated
    exact spare_generated _ root (inner?_eq_ok_iff.1 hsources).2 (inner?_eq_ok_iff.1 hgenerated).2

/-- Blank pieces do not hide that the output is the directory of the sources, and they do not count
    where it is another one. -/
theorem resolve_decides_safety_of_respelt_output :
    Bytes.ofString "/r" ≠ [] ∧
    resolve (Bytes.ofString "/r") { configDir := "./docs//", outputDir := "docs/." } =
      .error (.validation
        "layout.output_dir = /r/docs/. would delete the documentation sources in /r/./docs//") ∧
    ∃ site, resolve (Bytes.ofString "/r") { configDir := "docs", outputDir := "docs/./out/." } = .ok site ∧
      site.output.components =
        [.root, .name (Bytes.ofString "r"), .name (Bytes.ofString "docs"),
          .name (Bytes.ofString "out")] := by
  have hroot : Bytes.ofString "/r" ≠ [] := by decide +kernel
  have hsafe : LayoutSection.Safe { configDir := "docs", outputDir := "docs/./out/." } := by
    constructor <;> decide +kernel
  obtain ⟨-, -, hrefused, -⟩ :=
    resolve_decides_safety hroot { configDir := "./docs//", outputDir := "docs/." }
  obtain ⟨haccepted, hsite, -, -⟩ :=
    resolve_decides_safety hroot { configDir := "docs", outputDir := "docs/./out/." }
  refine ⟨hroot, (hrefused _).2 ⟨_, by decide +kernel, rfl⟩, ?_⟩
  obtain ⟨site, hresolve⟩ := haccepted.2 hsafe
  refine ⟨site, hresolve, (hsite site hresolve).2.2.2.trans ?_⟩
  decide +kernel

end Site
end DocBuild
