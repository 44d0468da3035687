import NativeBuild.Project.Evaluation
import NativeBuild.Text.Quoted

namespace NativeBuild.Inspect

open Text

def record (name : String) (fields : List (String × String)) : String :=
  name ++ " \x7b " ++ ", ".intercalate (fields.map fun f => f.1 ++ ": " ++ f.2) ++ " \x7d"

def call (name argument : String) : String :=
  name ++ "(" ++ argument ++ ")"

def list (items : List String) : String :=
  "[" ++ ", ".intercalate items ++ "]"

def set (items : List String) : String :=
  "\x7b" ++ ", ".intercalate items ++ "\x7d"

def deferred {α : Type} (value : α → String) : Deferred α → String
  | .unevaluated => call "Deferred" "<unevaluated>"
  | .evaluated v => call "Deferred" (value v)

def except {ε α : Type} (error : ε → String) (value : α → String) : Except ε α → String
  | .error e => call "Err" (error e)
  | .ok v => call "Ok" (value v)

def path (p : Path) : String := quoted p.text

def identity (b : BinaryIdentity) : String :=
  record "BinaryIdentity"
    [("name", quoted b.name), ("debuggable", toString b.debuggable),
     ("optimized", toString b.optimized), ("testable", toString b.testable)]

def componentId : ComponentId → String
  | .module group name version =>
    record "Module" [("group", quoted group), ("module", quoted name), ("version", quoted version)]
  | .project path => record "Project" [("path", quoted path)]
  | .libraryBinary projectPath library variant =>
    record "LibraryBinary"
      [("project_path", quoted projectPath), ("library_name", quoted library),
       ("variant", quoted variant)]
  | .unknown kind displayName =>
    record "Unknown" [("kind", quoted kind), ("display_name", quoted displayName)]

def artifact (a : Artifact) : String :=
  record "ResolvedArtifact" [("producer", componentId a.producer), ("file", path a.file)]

def moduleMap (m : ModuleMap) : String :=
  record "ModuleMap"
    [("module_name", quoted m.name), ("public_header_paths", list (m.headers.map quoted))]

def resolutionFailure : ResolutionFailure → String
  | .missingComponent dependency channel =>
    record "MissingComponent" [("dependency", quoted dependency), ("channel", quoted channel)]
  | .noMatchingVariant component requested channel =>
    record "NoMatchingVariant"
      [("component", quoted component), ("requested", quoted requested),
       ("channel", quoted channel)]
  | .ambiguousVariants component requested candidates =>
    record "AmbiguousVariants"
      [("component", quoted component), ("requested", quoted requested),
       ("candidates", toString candidates)]
  | .dependencyCycle component => record "DependencyCycle" [("component", quoted component)]

def buildError : BuildError → String
  | .unclassifiableProducer displayName kind =>
    record "UnclassifiableProducer" [("display_name", quoted displayName), ("kind", quoted kind)]
  | .resolution failure => call "Resolution" (resolutionFailure failure)
  | .channelConflict name => record "ChannelConflict" [("name", quoted name)]
  | .invalidDependency text reason =>
    record "InvalidDependency" [("notation", quoted text), ("reason", quoted reason)]
  | .invalidAttribute name reason =>
    record "InvalidAttribute" [("name", quoted name), ("reason", quoted reason)]
  | .invalidModuleName name reason =>
    record "InvalidModuleName" [("name", quoted name), ("reason", quoted reason)]
  | .projectRoot path reason =>
    record "ProjectRoot" [("path", quoted path), ("source", reason)]

def resolution : Resolution → String :=
  except resolutionFailure fun as => list (as.map artifact)

def artifacts (channel : Channel) (cell : Deferred Resolution) : String :=
  record "ArtifactSet" [("channel", quoted channel.name), ("resolved", deferred resolution cell)]

def descriptor (p : Project) (d : Descriptor) : Reading String := do
  let s ← get
  let slots := s.slots d.position
  return record "BinaryDescriptor"
    [("identity", identity d.identity),
     ("module", deferred quoted s.moduleName),
     ("source", set (p.sources.values.map path)),
     ("compile_modules", artifacts d.channels.compile slots.compile),
     ("link_libraries", artifacts d.channels.link slots.link),
     ("runtime_libraries", artifacts d.channels.runtime slots.runtime),
     ("compile_module_maps",
      deferred (except buildError fun maps => list (maps.map moduleMap)) slots.moduleMaps)]

end NativeBuild.Inspect
