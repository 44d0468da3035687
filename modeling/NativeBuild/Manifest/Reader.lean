import NativeBuild.Binary.Shape
import NativeBuild.Component.Shape
import NativeBuild.Manifest
import NativeBuild.Toml.Grammar
import NativeBuild.Toml.Value

namespace NativeBuild

open Shape

inductive ManifestError
  | malformed
  | shape (error : ShapeError)
  deriving DecidableEq, Inhabited

namespace Manifest

def defaultBuildDirectory : Path := ⟨"build"⟩

def projectRecord : RecordShape ProjectSection where
  title := "struct ProjectSection"
  fields :=
    [required "name" string fun s v => { s with name := v },
     optional "module" string fun s v => { s with moduleName := some v },
     optional "build_dir" path fun s v => { s with buildDirectory := v },
     optional "sources" (listOf path) fun s v => { s with sources := v }]
  closed := true
  surplus := none

def dependenciesRecord : RecordShape (List String) where
  title := "struct DependenciesSection"
  fields := [optional "implementation" (listOf string) fun _ v => v]
  closed := true
  surplus := none

def attributeTable : Shape (Dict String Document) := fun d =>
  match d.entries? with
  | some entries => do
    let entries ← Toml.anyEntries entries
    return .ofList (entries.map fun e => (e.1.text, e.2))
  | none => wrongType d "a map"

def variantRecord : RecordShape VariantSection where
  title := "struct VariantSection"
  fields :=
    [required "name" string fun s v => { s with name := v },
     optional "attributes" attributeTable fun s v => { s with attributes := v },
     optional "files" (listOf path) fun s v => { s with files := v },
     optional "dependencies" (listOf string) fun s v => { s with dependencies := v }]
  closed := true
  surplus := none

def variantKey : String := "variant"

/-- The key of a component's variants holds nothing else, so the identifier is read from the other
entries; what is wrong with it is at no certain place among them. -/
def component : Shape ComponentSection := fun d =>
  match d, d.entries? with
  | .list .., _ => wrongType d "struct ComponentSection"
  | _, none => wrongType d "struct ComponentSection"
  | _, some entries => do
    let variants ← match entries.find? (·.1.text == variantKey) with
      | some (key, value) =>
        located (value.span.or key.span)
          (listOf (variantRecord.read default) value)
      | none => pure []
    match ComponentId.ofEntries (entries.filter (·.1.text != variantKey)) with
    | .ok id => return ⟨id, variants⟩
    | .error e => mismatch e.cause

def record : RecordShape Manifest where
  title := "struct Manifest"
  fields :=
    [required "project"
      (projectRecord.read ⟨"", none, defaultBuildDirectory, []⟩)
      fun s v => { s with project := v },
     optional "dependencies" (dependenciesRecord.read []) fun s v => { s with implementation := v },
     optional "binary" (listOf (BinaryIdentity.shape none)) fun s v => { s with binaries := v },
     optional "component" (listOf component) fun s v => { s with components := v }]
  closed := true
  surplus := none

/-- Reads the text of a manifest. A text without the shape of one is malformed after all if anything
in it is no value. -/
def parse (text : String) : Except ManifestError Manifest :=
  match Toml.parse? text with
  | none => .error .malformed
  | some d =>
    (inside (record.read default) d).mapError fun e =>
      if Toml.hasValues d then .shape e else .malformed

end Manifest

end NativeBuild
