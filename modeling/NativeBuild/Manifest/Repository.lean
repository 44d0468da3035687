import NativeBuild.Attribute.Entry
import NativeBuild.Manifest
import NativeBuild.Repository

namespace NativeBuild

/-- A variant with its attributes and dependencies read, and its files below the root. The first
thing that cannot be read is the failure: attributes in the order of their names, then the
dependencies. -/
def VariantSection.resolve (v : VariantSection) (root : Path) : Except BuildError Variant := do
  let attributes ← v.attributes.entries.mapM fun e => do
    return (e.1, ← AttributeValue.ofEntry e.1 e.2)
  let dependencies ← v.dependencies.mapM Dependency.parse
  return ⟨v.name, .ofList attributes, v.files.map root.join, dependencies⟩

def ComponentSection.resolve (c : ComponentSection) (root : Path) : Except BuildError Component := do
  return ⟨c.id, ← c.variants.mapM (·.resolve root)⟩

def Manifest.repository (m : Manifest) (root : Path) : Except BuildError Repository := do
  return ⟨← m.components.mapM (·.resolve root)⟩

end NativeBuild
