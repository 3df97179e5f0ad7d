import DocBuild.Proofs.Toml.Data
import DocBuild.Settings
import Mathlib.Data.List.Nodup

namespace DocBuild

open Toml (Data Mapping Node)

/-- What may stand where a section belongs. -/
def Toml.Data.IsSection : Data → Prop
  | .table _ | .array _ | .dateTime => True
  | _ => False

namespace Settings

/-- The sections of a settings file. -/
inductive Part where
  | layout
  | builder
  | vcs
  deriving DecidableEq

def Part.name : Part → String
  | layout => "layout"
  | builder => "builder"
  | vcs => "vcs"

/-- The fields of the sections. -/
inductive Setting where
  | configDir
  | generatedDir
  | outputDir
  | builderProgram
  | prefixArgs
  | format
  | extraArgs
  | repositoryProgram
  deriving DecidableEq

namespace Setting

def part : Setting → Part
  | configDir | generatedDir | outputDir => .layout
  | builderProgram | prefixArgs | format | extraArgs => .builder
  | repositoryProgram => .vcs

/-- Its name in a section that is a table. -/
def key : Setting → String
  | configDir => "config_dir"
  | generatedDir => "generated_dir"
  | outputDir => "output_dir"
  | builderProgram => "program"
  | prefixArgs => "prefix_args"
  | format => "format"
  | extraArgs => "extra_args"
  | repositoryProgram => "program"

/-- Its index in a section that is an array. -/
def position : Setting → Nat
  | configDir | builderProgram | repositoryProgram => 0
  | generatedDir | prefixArgs => 1
  | outputDir | format => 2
  | extraArgs => 3

/-- What a setting is: a list of strings for the two lists of arguments, else a string. -/
abbrev Holds : Setting → Type
  | prefixArgs | extraArgs => List String
  | configDir | generatedDir | outputDir | builderProgram | format | repositoryProgram => String

def get : (x : Setting) → Settings → x.Holds
  | configDir, s => s.layout.configDir
  | generatedDir, s => s.layout.generatedDir
  | outputDir, s => s.layout.outputDir
  | builderProgram, s => s.builder.program
  | prefixArgs, s => s.builder.prefixArgs
  | format, s => s.builder.format
  | extraArgs, s => s.builder.extraArgs
  | repositoryProgram, s => s.vcs.program

/-- What a value is for the setting, if it is of the right kind. -/
def content? : (x : Setting) → Data → Option x.Holds
  | prefixArgs, d | extraArgs, d => d.texts?
  | configDir, d | generatedDir, d | outputDir, d | builderProgram, d | format, d
  | repositoryProgram, d => d.text?

/-- The value that a section gives the setting, by its key or by its position. -/
def field? (x : Setting) : Data → Option Data
  | .table entries => entries.lookup x.key
  | .array items => items[x.position]?
  | _ => none

/-- The value that a document gives the setting. -/
def mention? (x : Setting) (root : Mapping) : Option Data :=
  (root.lookup x.part.name).bind x.field?

end Setting

/-- Every section is of a kind that can be one, and every setting in it has a value of its own
    kind. -/
structure Readable (root : Mapping) : Prop where
  sections : ∀ (p : Part) d, root.lookup p.name = some d → d.IsSection
  values : ∀ (x : Setting) d, x.mention? root = some d → (x.content? d).isSome

variable {p q : Part} {x : Setting} {m : Mapping} {s s' : Settings}

theorem Part.name_injective (h : p.name = q.name) : p = q := by
  cases p <;> cases q <;> first | rfl | exact absurd h (by decide)

/-- The settings of a section, in the order of an array. -/
def Part.settings : Part → List Setting
  | layout => [.configDir, .generatedDir, .outputDir]
  | builder => [.builderProgram, .prefixArgs, .format, .extraArgs]
  | vcs => [.repositoryProgram]

theorem Part.nodup_settings : p.settings.Nodup := by
  cases p <;> decide

theorem Part.nodup_keys : (p.settings.map Setting.key).Nodup := by
  cases p <;> decide

theorem Setting.getElem?_settings (x : Setting) : x.part.settings[x.position]? = some x := by
  cases x <;> rfl

theorem Part.part_of_mem (hx : x ∈ p.settings) : x.part = p := by
  cases p <;> revert x <;> decide

theorem Setting.mem_settings (x : Setting) : x ∈ x.part.settings :=
  List.mem_of_getElem? x.getElem?_settings

theorem Setting.eq_of_key {y : Setting} (hpart : x.part = y.part) (hkey : x.key = y.key) : x = y :=
  List.inj_on_of_nodup_map Part.nodup_keys x.mem_settings (hpart ▸ y.mem_settings) hkey

theorem Setting.eq_of_position {y : Setting} (hpart : x.part = y.part)
    (hposition : x.position = y.position) : x = y := by
  have hx := x.getElem?_settings
  rw [hpart, hposition, y.getElem?_settings] at hx
  exact (Option.some.inj hx).symm

theorem Part.mem_zip_iff {items : List Node} {node : Node} :
    (x, node) ∈ p.settings.zip items ↔ x.part = p ∧ items[x.position]? = some node := by
  rw [List.mem_iff_getElem?]
  simp only [List.getElem?_zip_eq_some]
  constructor
  · rintro ⟨i, hx, hnode⟩
    obtain rfl := p.part_of_mem (List.mem_of_getElem? hx)
    have hi : i < x.part.settings.length := (List.getElem?_eq_some_iff.1 hx).1
    obtain rfl := (List.getElem?_inj hi Part.nodup_settings).1 (hx.trans x.getElem?_settings.symm)
    exact ⟨rfl, hnode⟩
  · rintro ⟨rfl, hnode⟩
    exact ⟨x.position, x.getElem?_settings, hnode⟩

/-- What may stand where a section belongs: something that can be one, with values of the right kinds
    for the settings in it. -/
def Part.Accepts (p : Part) (d : Data) : Prop :=
  d.IsSection ∧ ∀ x : Setting, x.part = p → ∀ d', x.field? d = some d' → (x.content? d').isSome

theorem readable_iff :
    Readable m ↔ ∀ (p : Part) d, m.lookup p.name = some d → p.Accepts d := by
  constructor
  · intro h p d hd
    refine ⟨h.sections p d hd, fun x hx d' hd' => h.values x d' ?_⟩
    rw [Setting.mention?, hx, hd, Option.bind_some, hd']
  · intro h
    refine ⟨fun p d hd => (h p d hd).1, fun x d' hd' => ?_⟩
    obtain ⟨d, hd, hd'⟩ := Option.bind_eq_some_iff.1 hd'
    exact (h x.part d hd).2 x rfl d' hd'

/-- Settings are known when every one of them is. -/
theorem ext_get (h : ∀ x : Setting, x.get s = x.get s') : s = s' := by
  obtain ⟨⟨_, _, _⟩, ⟨_, _, _, _⟩, ⟨_⟩⟩ := s
  obtain ⟨⟨_, _, _⟩, ⟨_, _, _, _⟩, ⟨_⟩⟩ := s'
  rw [Settings.mk.injEq, LayoutSection.mk.injEq, BuilderSection.mk.injEq, RepositorySection.mk.injEq]
  exact ⟨⟨h .configDir, h .generatedDir, h .outputDir⟩,
    ⟨h .builderProgram, h .prefixArgs, h .format, h .extraArgs⟩, h .repositoryProgram⟩

end Settings
end DocBuild
