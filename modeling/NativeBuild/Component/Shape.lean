import NativeBuild.Component
import NativeBuild.Dependency
import NativeBuild.Document.Shape

namespace NativeBuild

open Shape

structure Coordinates where
  group : String
  name : String
  version : String
  path : String
  projectPath : String
  library : String
  variant : String
  type : String
  displayName : String
  deriving Inhabited

namespace Coordinates

def moduleFields : List (RecordField Coordinates) :=
  [required "group" string fun s v => { s with group := v },
   required "module" string fun s v => { s with name := v },
   required "version" string fun s v => { s with version := v }]

def projectFields : List (RecordField Coordinates) :=
  [required "path" string fun s v => { s with path := v }]

def libraryFields : List (RecordField Coordinates) :=
  [required "project_path" string fun s v => { s with projectPath := v },
   required "library_name" string fun s v => { s with library := v },
   required "variant" string fun s v => { s with variant := v }]

def unknownFields : List (RecordField Coordinates) :=
  [required "type" string fun s v => { s with type := v },
   required "display_name" string fun s v => { s with displayName := v }]

end Coordinates

structure Form (α : Type) where
  label : String
  title : String
  fields : List (RecordField Coordinates)
  make : Coordinates → α

namespace Form

variable {α : Type}

def record (f : Form α) : RecordShape Coordinates :=
  ⟨f.title, f.fields, false, some fun n => RecordShape.counted n ++ " in sequence"⟩

def labelled (forms : List (Form α)) (label : String) : Except ShapeError (Form α) :=
  match forms.find? (·.label == label) with
  | some f => .ok f
  | none => mismatch (.unknownVariant label (forms.map (·.label)))

def ofEntries (f : Form α) (entries : List (Key × Document)) : Except ShapeError α :=
  return f.make (← f.record.readEntries default entries)

def ofItems (f : Form α) (items : List Document) : Except ShapeError α :=
  return f.make (← f.record.readItems 0 f.fields default items)

end Form

namespace ComponentId

def forms : List (Form ComponentId) :=
  [⟨"module", "struct variant ComponentIdentifier::Module", Coordinates.moduleFields,
    fun s => .module s.group s.name s.version⟩,
   ⟨"project", "struct variant ComponentIdentifier::Project", Coordinates.projectFields,
    fun s => .project s.path⟩,
   ⟨"library-binary", "struct variant ComponentIdentifier::LibraryBinary",
    Coordinates.libraryFields, fun s => .libraryBinary s.projectPath s.library s.variant⟩,
   ⟨"unknown", "struct variant ComponentIdentifier::Unknown", Coordinates.unknownFields,
    fun s => .unknown s.type s.displayName⟩]

def label : ComponentId → String
  | .module .. => "module"
  | .project .. => "project"
  | .libraryBinary .. => "library-binary"
  | .unknown .. => "unknown"

def kindKey : String := "kind"

def form : Shape (Form ComponentId)
  | .scalar (.string value) _ => Form.labelled forms value
  | d => wrongType d "variant identifier"

def ofEntries (entries : List (Key × Document)) : Except ShapeError ComponentId := do
  match entries.find? (·.1.text == kindKey) with
  | none => mismatch (.missingField kindKey)
  | some (_, kind) => (← form kind).ofEntries (entries.filter (·.1.text != kindKey))

def shape : Shape ComponentId
  | .table entries _ => ofEntries entries
  | .list (kind :: items) _ => do (← form kind).ofItems items
  | .list [] _ => mismatch (.missingField kindKey)
  | d => wrongType d "internally tagged enum ComponentIdentifier"

def labelled : ComponentId → List (String × String)
  | .module group name version => [("group", group), ("module", name), ("version", version)]
  | .project path => [("path", path)]
  | .libraryBinary projectPath library variant =>
    [("project_path", projectPath), ("library_name", library), ("variant", variant)]
  | .unknown kind displayName => [("type", kind), ("display_name", displayName)]

end ComponentId

namespace Dependency

def forms : List (Form Dependency) :=
  [⟨"Module", "struct variant Dependency::Module", Coordinates.moduleFields,
    fun s => .module s.group s.name s.version⟩,
   ⟨"Project", "struct variant Dependency::Project", Coordinates.projectFields,
    fun s => .project s.path⟩,
   ⟨"Library", "struct variant Dependency::Library", Coordinates.libraryFields,
    fun s => .library s.projectPath s.library s.variant⟩]

def label : Dependency → String
  | .module .. => "Module"
  | .project .. => "Project"
  | .library .. => "Library"

def shape : Shape Dependency
  | .table [(key, content)] _ => do
    let f ← Form.labelled forms key.text
    match content with
    | .table entries _ => f.ofEntries entries
    | d => wrongType d "struct variant"
  | .table .. => mismatch (.wrongValue "map" "map with a single key")
  | d => wrongType d "string or map"

def labelled : Dependency → List (String × String)
  | .module group name version => [("group", group), ("module", name), ("version", version)]
  | .project path => [("path", path)]
  | .library projectPath name variant =>
    [("project_path", projectPath), ("library_name", name), ("variant", variant)]

end Dependency

end NativeBuild
