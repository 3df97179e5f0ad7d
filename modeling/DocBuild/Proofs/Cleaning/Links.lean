import DocBuild.Proofs.Cleaning.Run
import DocBuild.Proofs.FileTree.Emptying
import DocBuild.Proofs.FileTree.Links
import DocBuild.Proofs.Site.Resolution

namespace DocBuild

open FileTree (Under)

/-- One of the two directories that are deleted before a build. -/
inductive Target where
  | generated
  | output
  deriving DecidableEq, Repr

namespace Target

def other : Target → Target
  | generated => output
  | output => generated

def path (site : Site) : Target → Path
  | generated => site.generated
  | output => site.output

/-- The configured value with which the path ends. -/
def value (layout : LayoutSection) : Target → String
  | generated => layout.generatedDir
  | output => layout.outputDir

/-- The names that lead from the root to the directory. -/
def names (layout : LayoutSection) : Target → List Name
  | generated => layout.generatedNames
  | output => layout.outputNames

theorem mem_targets_iff {site : Site} {p : Path} (target : Target) :
    p ∈ site.targets ↔ p = target.path site ∨ p = target.other.path site := by
  cases target with
  | generated => simp [Site.targets, path, other]
  | output => simp [Site.targets, path, other, or_comm]

/-- A directory to be deleted is reached from the root by names and ends as its value does. -/
theorem path_eq_join {root : Path} {layout : LayoutSection} {site : Site} (target : Target)
    (hsite : Site.resolve root layout = .ok site) :
    ∃ q : Path, q.Inner ∧ q.names = target.names layout ∧ target.path site = root.join q ∧
      q.endsInName = Path.endsInName (Bytes.ofString (target.value layout)) := by
  obtain ⟨⟨hsources, hgenerated, houtput⟩, -, rfl⟩ := Site.resolve_eq_ok_iff.1 hsite
  cases target with
  | generated =>
    exact ⟨_, hsources.join hgenerated, hsources.names_join hgenerated,
      Path.join_assoc hsources hgenerated, hgenerated.endsInName_join hsources.ne_nil⟩
  | output => exact ⟨_, houtput, rfl, rfl, rfl⟩

end Target

variable {c : Context} {s between : Session} {p : Path} {m k : Location}

/-- Once a deletion has come to a directory that it may empty, nothing is left of what was in it. -/
theorem get?_leaves_removeAll {before removed : List Path} (after : List Path)
    (hbefore : (removeAll before).run c s = .ok removed between)
    (hentry : between.tree.entry c.directory .keep p = .ok (m, .directory))
    (hfree : c.obstacles between.tree m = none) (hbelow : m <:+ k) (hne : k ≠ m) :
    ((removeAll (before ++ p :: after)).leaves c s).get? k = none := by
  induction before generalizing s removed with
  | nil =>
    cases hbefore
    have hgone : ((removeForced p).leaves c between).get? k = none := by
      rw [leaves_removeForced]
      exact FileTree.get?_removeForced_of_directory hentry hfree hbelow hne
    rw [List.nil_append]
    cases hrun : (removeForced p).run c between with
    | error f s' =>
      rw [Work.leaves_of_error hrun] at hgone
      rw [Work.leaves_of_error (run_removeAll_of_error hrun)]
      exact hgone
    | ok b s' =>
      rw [Work.leaves_of_ok hrun] at hgone
      rw [leaves_removeAll_of_ok hrun]
      exact (loses_removeAll after).partOf.get?_eq_none hgone
  | cons q before ih =>
    obtain ⟨b, s', more, hfirst, hrest, -⟩ := run_removeAll_cons_eq_ok_iff.1 hbefore
    rw [List.cons_append, leaves_removeAll_of_ok hfirst]
    exact ih hrest

/-- A link in the place of a working directory is all that a cleaning takes there, whether or not it
    succeeds, if the configured value ends in the name of the link, or else if the link leads to no
    directory. Otherwise the path names the directory to which the link leads, and once the cleaning
    has come to it, nothing is left of what was in that directory. -/
theorem linked_target_spared {layout : LayoutSection} {site : Site} {base : Location} {link : Path}
    (target : Target) (hsite : Site.resolve site.root layout = .ok site)
    (hroot : s.tree.entry c.directory .follow site.root = .ok (base, .directory))
    (hlink : s.tree.get? ((target.names layout).reverse ++ base) = some (.link link)) :
    (Path.endsInName (Bytes.ofString (target.value layout)) = true ∨
        (∀ m, s.tree.entry c.directory .keep (target.path site) ≠ .ok (m, .directory)) →
      s.tree.Loses (site.clean.leaves c s) fun k => k = (target.names layout).reverse ++ base ∨
        Under s.tree c.directory (target.other.path site) k) ∧
    ∀ m, s.tree.entry c.directory .keep (target.path site) = .ok (m, .directory) →
      Path.endsInName (Bytes.ofString (target.value layout)) = false ∧
      (∃ links, s.tree.walk .follow links
        (link.origin ((target.names layout).reverse ++ base).tail) link.steps = .ok m) ∧
      ∀ before after removed between, site.targets = before ++ target.path site :: after →
        (removeAll before).run c s = .ok removed between →
        between.tree.entry c.directory .keep (target.path site) = .ok (m, .directory) →
        c.obstacles between.tree m = none →
        ∀ k, m <:+ k → k ≠ m → (site.clean.leaves c s).get? k = none := by
  obtain ⟨q, hq, hnames, hpath, hends⟩ := target.path_eq_join hsite
  rw [← hnames] at hlink
  rw [← hends, ← hnames]
  refine ⟨?_, fun m hentry => ?_⟩
  · intro hkept
    refine FileTree.Loses.of_link hlink ((loses_removeAll site.targets).mono ?_)
    rintro k ⟨p, hp, l, e, hentry, hk⟩
    rcases (target.mem_targets_iff).1 hp with rfl | rfl
    · left
      have hjoined := hentry
      rw [hpath] at hjoined
      cases hname : q.endsInName with
      | true =>
        rw [← FileTree.entry_of_endsInName hroot hq hlink hname hjoined]
        exact hk
      | false =>
        obtain ⟨rfl, -⟩ := FileTree.entry_of_not_endsInName hroot hq hlink hname hjoined
        rcases hkept with hkept | hnone
        · rw [hname] at hkept
          cases hkept
        · exact absurd hentry (hnone l)
    · exact .inr ⟨l, e, hentry, hk⟩
  · have hjoined := hentry
    rw [hpath] at hjoined
    have hfollowed : q.endsInName = false := by
      refine Bool.eq_false_iff.2 fun hname => ?_
      have hplace := FileTree.entry_of_endsInName hroot hq hlink hname hjoined
      rw [← hplace, (FileTree.entry_eq_ok_iff.1 hjoined).2] at hlink
      cases hlink
    refine ⟨hfollowed, (FileTree.entry_of_not_endsInName hroot hq hlink hfollowed hjoined).2, ?_⟩
    intro before after removed between htargets hbefore hfound hfree k hbelow hne
    rw [Site.clean, htargets]
    exact get?_leaves_removeAll after hbefore hfound hfree hbelow hne

/-- A repository in `/r` in which the output is a link to the sources. -/
def linkedTree : FileTree :=
  let name := Bytes.ofString
  let t := (FileTree.bare.put (name "r") [] .directory).put (name "docs") [name "r"] .directory
  let t := t.put (name "conf.py") [name "docs", name "r"] (.file (name "master") false)
  t.put (name "out") [name "r"] (.link (name "docs"))

/-- With a slash behind its name the link to the sources is followed, and they are lost. -/
theorem linked_target_followed_of_slash :
    let name := Bytes.ofString
    let layout : LayoutSection := { outputDir := "out/" }
    let site : Site := {
      root := name "/r", sources := name "/r/docs"
      generated := name "/r/docs/generated", output := name "/r/out/" }
    let c : Context := { directory := [], launch := fun _ _ => .error .zeroByte }
    let s : Session := { tree := linkedTree }
    let conf : Location := [name "conf.py", name "docs", name "r"]
    Site.resolve site.root layout = .ok site ∧
      s.tree.entry c.directory .follow site.root = .ok ([name "r"], .directory) ∧
      s.tree.get? ((Target.output.names layout).reverse ++ [name "r"]) = some (.link (name "docs")) ∧
      s.tree.get? conf = some (.file (name "master") false) ∧
      ¬ Under s.tree c.directory (Target.output.other.path site) conf ∧
      (site.clean.leaves c s).get? conf = none := by
  intro name layout site c s conf
  have hsite : Site.resolve site.root layout = .ok site := by rfl
  have hroot : s.tree.entry c.directory .follow site.root = .ok ([name "r"], .directory) := by rfl
  have hlink : s.tree.get? ((Target.output.names layout).reverse ++ [name "r"]) =
      some (.link (name "docs")) := by decide +kernel
  have hentry : s.tree.entry c.directory .keep site.output =
      .ok ([name "docs", name "r"], .directory) := by rfl
  refine ⟨hsite, hroot, hlink, by decide +kernel, by decide +kernel, ?_⟩
  obtain ⟨-, hfollowed⟩ := linked_target_spared .output hsite hroot hlink
  obtain ⟨-, -, hgone⟩ := hfollowed _ hentry
  have hbefore : s.tree.removeForced c.obstacles c.directory site.generated = (s.tree, .ok false) := by
    have hmissing : s.tree.entry c.directory .keep site.generated = .error (.system .noEntry) := by rfl
    simp only [FileTree.removeForced, hmissing]
    rfl
  obtain ⟨r, hfirst⟩ := run_removeForced_of_ok hbefore
  exact hgone [site.generated] [] _ _ rfl
    (run_removeAll_cons_eq_ok_iff.2 ⟨false, _, [], hfirst, rfl, rfl⟩) hentry rfl conf
    (by decide +kernel) (by decide +kernel)

end DocBuild
