import DocBuild.Proofs.Build.Agreement

namespace DocBuild

namespace Bytes

variable {b x : Bytes} {last : UInt8}

/-- What is left was there with the final byte behind it, or it is all there was. -/
theorem dropFinal_eq_iff :
    b.dropFinal last = x ↔ b = x ∧ x.getLast? ≠ some last ∨ b = x ++ [last] := by
  unfold dropFinal
  constructor
  · intro h
    split at h
    · next hlast =>
      obtain ⟨body, rfl⟩ := List.getLast?_eq_some_iff.1 hlast
      rw [List.dropLast_concat] at h
      exact .inr (h ▸ rfl)
    · next hlast => exact .inl ⟨h, h ▸ hlast⟩
  · rintro (⟨rfl, hlast⟩ | rfl)
    · exact if_neg hlast
    · simp

end Bytes

namespace Locator

open Bytes (newline carriageReturn)

variable {output p : Bytes}

theorem answer?_eq : answer? output =
    if (output.dropFinal newline).dropFinal carriageReturn = [] then none
    else some ((output.dropFinal newline).dropFinal carriageReturn) := by
  unfold answer?
  split
  · next hnil => rw [if_pos hnil]
  · next hne => rw [if_neg hne]

/-- What is left when a line break of one of three kinds has been cut. -/
theorem dropFinal_dropFinal_eq_iff : (output.dropFinal newline).dropFinal carriageReturn = p ↔
    output = p ∧ p.getLast? ≠ some newline ∧ p.getLast? ≠ some carriageReturn ∨
      output = p ++ [newline] ∧ p.getLast? ≠ some carriageReturn ∨
      output = p ++ [carriageReturn] ∨ output = p ++ [carriageReturn, newline] := by
  have hother : (p ++ [carriageReturn]).getLast? ≠ some newline := by
    rw [List.getLast?_concat]
    decide
  have hbreak : p ++ [carriageReturn] ++ [newline] = p ++ [carriageReturn, newline] :=
    List.append_assoc p [carriageReturn] [newline]
  rw [Bytes.dropFinal_eq_iff, Bytes.dropFinal_eq_iff, Bytes.dropFinal_eq_iff, hbreak,
    and_iff_left hother, or_and_right, or_assoc, and_assoc]

/-- An answer is all that was printed, or it was printed with a line break behind it. -/
theorem answer?_eq_some_iff : answer? output = some p ↔ p ≠ [] ∧
    (output = p ∧ p.getLast? ≠ some newline ∧ p.getLast? ≠ some carriageReturn ∨
      output = p ++ [newline] ∧ p.getLast? ≠ some carriageReturn ∨
      output = p ++ [carriageReturn] ∨ output = p ++ [carriageReturn, newline]) := by
  rw [answer?_eq, Option.ite_none_left_eq_some, Option.some_inj, ← dropFinal_dropFinal_eq_iff]
  refine and_congr_left fun hleft => ?_
  rw [hleft]

/-- There is no answer if nothing but a line break was printed. -/
theorem answer?_eq_none_iff : answer? output = none ↔
    output ∈ [[], [newline], [carriageReturn], [carriageReturn, newline]] := by
  have hcut : answer? output = none ↔
      (output.dropFinal newline).dropFinal carriageReturn = [] := by
    rw [answer?_eq, ite_eq_left_iff]
    simp
  rw [hcut, dropFinal_dropFinal_eq_iff]
  simp

end Locator

/-- The spelling of what is configured under a directory: one slash is supplied where the directory
    does not end in one. -/
def Path.under (p : Path) (configured : String) : Path :=
  p ++ (if p.getLast? = some Bytes.slash then [] else [Bytes.slash]) ++ Bytes.ofString configured

theorem Path.join_eq_under {p : Path} {configured : String} (hp : p ≠ [])
    (hrelative : Path.isAbsolute (Bytes.ofString configured) = false) :
    p.join (Bytes.ofString configured) = p.under configured := by
  rw [join, if_neg (by simp [hrelative]), under]
  by_cases hlast : p.getLast? = some Bytes.slash
  · rw [if_pos (.inr hlast), if_pos hlast, List.append_nil]
  · rw [if_neg (by simp [hp, hlast]), if_neg hlast]
    simp

section

variable {c : Context} {program : String} {start : Path} {layout : LayoutSection}
  {builder : BuilderSection} {s : Session} {site : Site} {finished : Completion} {p : Path}
  {found cleaned : FileTree} {removed : List Path}

/-- The sources and the output of an accepted layout have the root's spelling and their own. -/
theorem Site.spelt_under (hroot : site.root ≠ []) (hsite : Site.resolve site.root layout = .ok site) :
    site.sources = site.root.under layout.configDir ∧
      site.output = site.root.under layout.outputDir := by
  obtain ⟨⟨hsources, -, houtput⟩, -, heq⟩ := Site.resolve_eq_ok_iff.1 hsite
  constructor
  · rw [← Path.join_eq_under hroot hsources.relative]
    exact congrArg Site.sources heq
  · rw [← Path.join_eq_under hroot houtput.relative]
    exact congrArg Site.output heq

/-- What a builder is started with when the root of its site is spelt in some way. -/
def BuilderSection.launchUnder (b : BuilderSection) (layout : LayoutSection) (p : Path) : Launch where
  program := b.program
  arguments :=
    b.prefixArgs.map Bytes.ofString
      ++ [Bytes.ofString "-M", Bytes.ofString b.format, p.under layout.configDir,
        p.under layout.outputDir]
      ++ b.extraArgs.map Bytes.ofString
  directory := p

theorem BuilderSection.launch_eq (hroot : site.root ≠ [])
    (hsite : Site.resolve site.root layout = .ok site) :
    builder.launch site = builder.launchUnder layout site.root := by
  obtain ⟨hsources, houtput⟩ := Site.spelt_under hroot hsite
  rw [launchUnder, ← hsources, ← houtput]
  rfl

/-- What becomes of the bytes that a version control program prints. -/
structure KeepsSpelling (c : Context) (program : String) (start : Path) (s : Session)
    (finished : Completion) : Prop where
  /-- A path that ends in no line break is found as it was printed, with a line break behind it or
      none. -/
  answered (p : Path) (hp : p ≠ []) (hreturn : p.getLast? ≠ some Bytes.carriageReturn)
    (hnewline : p.getLast? ≠ some Bytes.newline)
    (hprinted : finished.output ∈
      [p, p ++ [Bytes.newline], p ++ [Bytes.carriageReturn, Bytes.newline]]) :
    ((Locator.asked program).root start).effect c s = (finished.tree, .ok p)
  /-- What is found is what was printed, up to one line break at the end. -/
  printed (p : Path) (t : FileTree)
    (hfound : ((Locator.asked program).root start).effect c s = (t, .ok p)) :
    t = finished.tree ∧ p ≠ [] ∧ finished.output ∈
      [p, p ++ [Bytes.newline], p ++ [Bytes.carriageReturn],
        p ++ [Bytes.carriageReturn, Bytes.newline]]
  /-- The search fails, and then for the environment, exactly if nothing but a line break was
      printed. -/
  unanswered (t : FileTree) (f : Failure) :
    ((Locator.asked program).root start).effect c s = (t, .error f) ↔
      t = finished.tree ∧
        f = .environment s!"`{program} rev-parse --show-toplevel` printed no path" ∧
        finished.output ∈ [[], [Bytes.newline], [Bytes.carriageReturn],
          [Bytes.carriageReturn, Bytes.newline]]
  /-- A build asks for a second program exactly where the layout suits the root and the generated
      files and the output are deleted; the path of the output is the spelling of the root and its
      own. The program is the builder. It works in the root, and has the same spelling of the output
      among its arguments. -/
  launched (p : Path) (found : FileTree) (layout : LayoutSection) (builder : BuilderSection)
    (kind : FileTree → Launch → Prop)
    (hfound : ((Locator.asked program).root start).effect c s = (found, .ok p)) :
    (build (Locator.asked program).root start layout builder).Requests c s kind ↔
      kind s.tree ⟨program, Locator.question, start⟩ ∨
        ∃ site between cleaned b b', Site.resolve p layout = .ok site ∧
          found.removeForced c.obstacles c.directory site.generated = (between, .ok b) ∧
          between.removeForced c.obstacles c.directory (p.under layout.outputDir) =
            (cleaned, .ok b') ∧
          kind cleaned (builder.launchUnder layout p)

/-- The bytes of a root that a program has answered reach the builder unchanged. -/
theorem root_keeps_spelling
    (hlaunch : c.launch s.tree ⟨program, Locator.question, start⟩ = .ok finished)
    (hsuccess : finished.ending.success = true) : KeepsSpelling c program start s finished := by
  have hanswer {p : Path} {t : FileTree}
      (hfound : ((Locator.asked program).root start).effect c s = (t, .ok p)) :
      Locator.answer? finished.output = some p ∧ t = finished.tree := by
    obtain ⟨finished', hlaunch', -, hanswer, htree⟩ := Locator.effect_asked_eq_ok_iff.1 hfound
    rw [hlaunch] at hlaunch'
    cases hlaunch'
    exact ⟨hanswer, htree.symm⟩
  constructor
  case answered =>
    intro p hp hreturn hnewline hprinted
    have hanswer : Locator.answer? finished.output = some p := by
      refine Locator.answer?_eq_some_iff.2 ⟨hp, ?_⟩
      simp only [List.mem_cons, List.not_mem_nil, or_false] at hprinted
      rcases hprinted with h | h | h
      · exact .inl ⟨h, hnewline, hreturn⟩
      · exact .inr (.inl ⟨h, hreturn⟩)
      · exact .inr (.inr (.inr h))
    exact Locator.effect_asked_eq_ok_iff.2 ⟨finished, hlaunch, hsuccess, hanswer, rfl⟩
  case printed =>
    intro p t hfound
    obtain ⟨hanswer, htree⟩ := hanswer hfound
    obtain ⟨hp, hprinted⟩ := Locator.answer?_eq_some_iff.1 hanswer
    refine ⟨htree, hp, ?_⟩
    rcases hprinted with ⟨h, -⟩ | ⟨h, -⟩ | h | h <;> simp [h]
  case unanswered =>
    intro t f
    rw [Locator.effect_asked_of_launch_ok hlaunch, Locator.verdict, if_pos hsuccess,
      ← Locator.answer?_eq_none_iff]
    cases Locator.answer? finished.output with
    | none => simp [eq_comm]
    | some p => simp
  case launched =>
    intro p found layout builder kind hfound
    have hne : p ≠ [] := (Locator.answer?_eq_some_iff.1 (hanswer hfound).1).1
    rw [Locator.requests_build_iff]
    constructor
    · rintro (⟨q, hq, hkind⟩ | ⟨site, removed, cleaned, hclean, hkind⟩)
      · obtain rfl := Option.some.inj hq
        exact .inl hkind
      · obtain ⟨hsite, hcleans⟩ := (Locator.cleaned_iff hfound).1 ⟨removed, hclean⟩
        obtain ⟨between, b, b', hfirst, hsecond⟩ := Site.cleansTo_iff.1 hcleans
        obtain rfl := Site.root_eq hsite
        rw [(Site.spelt_under hne hsite).2] at hsecond
        rw [BuilderSection.launch_eq hne hsite] at hkind
        exact .inr ⟨site, between, cleaned, b, b', hsite, hfirst, hsecond, hkind⟩
    · rintro (hkind | ⟨site, between, cleaned, b, b', hsite, hfirst, hsecond, hkind⟩)
      · exact .inl ⟨_, rfl, hkind⟩
      · obtain rfl := Site.root_eq hsite
        rw [← (Site.spelt_under hne hsite).2] at hsecond
        rw [← BuilderSection.launch_eq hne hsite] at hkind
        obtain ⟨removed, hclean⟩ := (Locator.cleaned_iff hfound).2
          ⟨hsite, Site.cleansTo_iff.2 ⟨between, b, b', hfirst, hsecond⟩⟩
        exact .inr ⟨site, removed, cleaned, hclean, hkind⟩

/-- A root whose name has a blank and a byte that belongs to no text, answered with a line break of two
    bytes: the builder works in this very root. -/
theorem root_keeps_spelling_of_odd_name :
    let p : Path := [Bytes.slash, 114, 32, 255]
    let tree := FileTree.bare.put [114, 32, 255] [] .directory
    let finished : Completion := {
      ending := .exited 0, tree, errors := []
      output := p ++ [Bytes.carriageReturn, Bytes.newline] }
    let c : Context := { directory := [], launch := fun _ _ => .ok finished }
    let s : Session := { tree }
    let start := Bytes.ofString "/"
    (c.launch s.tree ⟨"git", Locator.question, start⟩ = .ok finished ∧
        finished.ending.success = true) ∧
      KeepsSpelling c "git" start s finished ∧
      ((Locator.asked "git").root start).effect c s = (tree, .ok p) ∧
      (build (Locator.asked "git").root start {} {}).Requests c s
        ((BuilderSection.launchUnder {} {} p).on tree) := by
  intro p tree finished c s start
  have hspelling : KeepsSpelling c "git" start s finished := root_keeps_spelling rfl rfl
  have hfound : ((Locator.asked "git").root start).effect c s = (tree, .ok p) :=
    hspelling.answered p (by decide) (by decide) (by decide) (by decide)
  refine ⟨⟨rfl, rfl⟩, hspelling, hfound, ?_⟩
  refine (hspelling.launched p tree {} {} _ hfound).2 (.inr ?_)
  exact ⟨_, tree, tree, false, false, rfl, rfl, rfl, rfl, rfl⟩

end

end DocBuild
