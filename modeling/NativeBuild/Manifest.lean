import NativeBuild.Binary
import NativeBuild.Component
import NativeBuild.Dict
import NativeBuild.Document
import NativeBuild.Path

namespace NativeBuild

structure ProjectSection where
  name : String
  moduleName : Option String
  buildDirectory : Path
  sources : List Path
  deriving Inhabited

structure VariantSection where
  name : String
  attributes : Dict String Document
  files : List Path
  dependencies : List String
  deriving Inhabited

structure ComponentSection where
  id : ComponentId
  variants : List VariantSection
  deriving Inhabited

structure Manifest where
  project : ProjectSection
  implementation : List String
  binaries : List BinaryIdentity
  components : List ComponentSection
  deriving Inhabited

namespace Manifest

def fileName : String := "native.toml"

def binaryIdentities (m : Manifest) : List BinaryIdentity :=
  if m.binaries.isEmpty then BinaryIdentity.conventional else m.binaries

end Manifest

end NativeBuild
