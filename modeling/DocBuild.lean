import DocBuild.Build
import DocBuild.CommandLine.Run
import DocBuild.Machine
import DocBuild.Main
import DocBuild.Proofs.Cleaning.Sources
import DocBuild.Proofs.Site.Resolution
import DocBuild.Settings.Store
import DocBuild.Site
import DocBuild.Text.Utf8
import DocBuild.Proofs.Build.Run
import DocBuild.Proofs.Cleaning.Completeness
import DocBuild.Proofs.Build.Output
import DocBuild.Proofs.FileTree.Growth
import DocBuild.Proofs.FileTree.Writing
import DocBuild.Proofs.Settings.Creation
import DocBuild.Proofs.Settings.Defaults
import DocBuild.Proofs.Settings.Partial
import DocBuild.Proofs.Path.Parent
import DocBuild.Proofs.Toml.Tables
import DocBuild.Proofs.Build.Protocol
import DocBuild.Proofs.Build.Effects
import DocBuild.Proofs.CommandLine.Show
import DocBuild.Proofs.Build.Repeat
import DocBuild.Proofs.Build.View
import DocBuild.Proofs.Build.Spelling
import DocBuild.Proofs.CommandLine.Use
import DocBuild.Proofs.Site.Acceptance
import DocBuild.Proofs.Cleaning.Removability
import DocBuild.Proofs.Cleaning.Links
import DocBuild.Proofs.Cleaning.Reports
import DocBuild.Proofs.CommandLine.Told
import DocBuild.Proofs.FileTree.Respelling
import DocBuild.Proofs.Settings.Mentions
import DocBuild.Proofs.Toml.Outline
import DocBuild.Proofs.Settings.Partial
