import NativeBuild.Artifact

namespace NativeBuild

structure ModuleMap where
  name : String
  headers : List String
  deriving DecidableEq, Inhabited

def classify (id : ComponentId) : Except BuildError String :=
  match id.moduleName? with
  | some name => .ok name
  | none => .error (.unclassifiableProducer id.displayName id.kind)

namespace ModuleMap

def addHeader (name header : String) : List ModuleMap → List ModuleMap
  | [] => [⟨name, [header]⟩]
  | m :: rest =>
    if m.name = name then ⟨m.name, m.headers ++ [header]⟩ :: rest
    else m :: addHeader name header rest

/-- Groups artifacts into module maps. Maps are in the order in which their names first occur, and
headers in the order of the artifacts; the first producer without a module name ends it all. -/
def aggregate (artifacts : List Artifact) : Except BuildError (List ModuleMap) :=
  artifacts.foldlM
    (fun maps a => return addHeader (← classify a.producer) a.file.text maps) []

def view : AttributeSet :=
  AttributeSet.declare .empty .requiresModuleMap true

def request (compile : Channel) : Request :=
  compile.artifactView view

def ofResolution (answer : Resolution) : Except BuildError (List ModuleMap) := do
  aggregate (← answer.mapError .resolution)

def escape (c : Char) : List Char :=
  if c = '\\' || c = '\x22' then ['\\', c] else [c]

/-- The line of one header: a directory is an umbrella over all it holds. -/
def headerLine (isDirectory : Bool) (header : String) : String :=
  "    " ++ (if isDirectory then "umbrella" else "header") ++ " \""
    ++ String.ofList (header.toList.flatMap escape) ++ "\"\n"

def frame (name : String) (lines : List String) : String :=
  "module " ++ name ++ " \x7b\n" ++ String.join lines ++ "    export *\n\x7d\n"

def render (isDirectory : Path → Bool) (m : ModuleMap) : String :=
  frame m.name (m.headers.map fun h => headerLine (isDirectory ⟨h⟩) h)

end ModuleMap

end NativeBuild
