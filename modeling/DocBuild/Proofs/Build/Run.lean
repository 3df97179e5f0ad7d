import DocBuild.Build
import DocBuild.Proofs.Cleaning.Run
import DocBuild.Proofs.Locator
import DocBuild.Proofs.Site.Resolution

namespace DocBuild

variable {α : Type} {c : Context} {s s' : Session} {find : RootFinder} {start : Path}
  {layout : LayoutSection}

theorem run_findSite_eq_ok {site : Site} (h : (findSite find start layout).run c s = .ok site s') :
    ∃ root asked, asked.tree = s.tree ∧ (find start).run c asked = .ok root s' ∧
      Site.resolve root layout = .ok site := by
  unfold findSite at h
  obtain ⟨asked, hasked, h⟩ := Work.run_report_bind_eq_ok h
  obtain ⟨root, found, hfind, h⟩ := Work.run_bind_eq_ok_iff.1 h
  obtain ⟨hsite, rfl⟩ := Work.run_ofExcept_eq_ok_iff.1 h
  exact ⟨root, asked, hasked, hfind, hsite⟩

theorem run_clean_eq_ok {site : Site} {removed : List Path}
    (h : (clean find start layout).run c s = .ok (site, removed) s') :
    ∃ root asked found ready cleaned, asked.tree = s.tree ∧
      (find start).run c asked = .ok root found ∧ Site.resolve root layout = .ok site ∧
      ready.tree = found.tree ∧ site.clean.run c ready = .ok removed cleaned ∧
      s'.tree = cleaned.tree := by
  unfold clean at h
  obtain ⟨site', found, hsite, h⟩ := Work.run_bind_eq_ok_iff.1 h
  obtain ⟨root, asked, hasked, hfind, hresolve⟩ := run_findSite_eq_ok hsite
  obtain ⟨ready, hready, h⟩ := Work.run_report_bind_eq_ok h
  obtain ⟨removed', cleaned, hclean, h⟩ := Work.run_bind_eq_ok_iff.1 h
  obtain ⟨last, hlast, h⟩ := Work.run_log_bind_eq_ok h
  rw [Work.run_pure] at h
  obtain ⟨⟨rfl, rfl⟩, rfl⟩ := EStateM.Result.ok.inj h
  exact ⟨root, asked, found, ready, cleaned, hasked, hfind, hresolve, hready, hclean, hlast⟩

end DocBuild
