import NativeBuild.Component
import NativeBuild.Failure
import NativeBuild.Text.Blank

namespace NativeBuild

inductive Dependency
  | module (group name version : String)
  | project (path : String)
  | library (projectPath name variant : String)
  deriving DecidableEq, Inhabited

namespace Dependency

def selects : Dependency → ComponentId → Bool
  | .module group name version, .module g n v =>
    name == n && (group == "" || group == g) && (version == "" || version == v)
  | .project path, .project p => path == p
  | .library projectPath name variant, .libraryBinary p n v =>
    projectPath == p && name == n && variant == v
  | _, _ => false

def text : Dependency → String
  | .module group name version =>
    (if group = "" then "" else group ++ ":") ++ name
      ++ (if version = "" then "" else ":" ++ version)
  | .project path => path
  | .library projectPath name variant => s!"library:{projectPath}/{name}/{variant}"

inductive Malformed
  | empty
  | libraryParts
  | projectSegment
  | moduleSegment
  | moduleParts
  deriving DecidableEq

def Malformed.reason : Malformed → String
  | .empty => "empty notation"
  | .libraryParts => "expected library:<project>/<library>/<variant>"
  | .projectSegment => "project path has an empty segment"
  | .moduleSegment => "module coordinates have an empty segment"
  | .moduleParts => "expected group:module:version"

def libraryMark : List Char := "library:".toList

def ofLibraryParts (rest : List Char) : Except Malformed Dependency :=
  let parts := rest.splitOn '/'
  if parts.any (·.isEmpty) then .error .libraryParts
  else match parts with
    | [p, l, v] => .ok (.library (String.ofList p) (String.ofList l) (String.ofList v))
    | _ => .error .libraryParts

def ofProjectPath (cs : List Char) : Except Malformed Dependency :=
  -- A lone colon is the root project.
  if (cs.splitOn ':').tail.any (·.isEmpty) && cs != [':'] then .error .projectSegment
  else .ok (.project (String.ofList cs))

def ofCoordinates (cs : List Char) : Except Malformed Dependency :=
  let parts := cs.splitOn ':'
  if parts.any (·.isEmpty) then .error .moduleSegment
  else match parts with
    | [m] => .ok (.module "" (String.ofList m) "")
    | [g, m] => .ok (.module (String.ofList g) (String.ofList m) "")
    | [g, m, v] => .ok (.module (String.ofList g) (String.ofList m) (String.ofList v))
    | _ => .error .moduleParts

def ofTrimmed (cs : List Char) : Except Malformed Dependency :=
  if cs.isEmpty then .error .empty
  else if libraryMark.isPrefixOf cs then ofLibraryParts (cs.drop libraryMark.length)
  else if cs.head? = some ':' then ofProjectPath cs
  else ofCoordinates cs

def parse (s : String) : Except BuildError Dependency :=
  (ofTrimmed (Text.trim s.toList)).mapError fun why => .invalidDependency s why.reason

end Dependency

/-- A named list of declared dependencies, each of them once. -/
structure DependencySet where
  name : String
  dependencies : List Dependency
  nodup : dependencies.Nodup
  deriving DecidableEq

namespace DependencySet

def empty (name : String) : DependencySet := ⟨name, [], .nil⟩

instance : Inhabited DependencySet := ⟨empty ""⟩

def add (s : DependencySet) (d : Dependency) : DependencySet :=
  if h : d ∈ s.dependencies then s
  else ⟨s.name, s.dependencies ++ [d], by
    refine List.nodup_append.2 ⟨s.nodup, by simp, ?_⟩
    intro a ha b hb hab
    rw [List.mem_singleton.1 hb] at hab
    exact h (hab ▸ ha)⟩

theorem mem_add {s : DependencySet} {d e : Dependency} :
    e ∈ (s.add d).dependencies ↔ e ∈ s.dependencies ∨ e = d := by
  unfold add
  split
  · exact ⟨.inl, fun h => h.elim id fun h => h ▸ ‹_›⟩
  · simp

def ofList (name : String) (ds : List Dependency) : DependencySet :=
  ds.foldl add (empty name)

def contains (s : DependencySet) (d : Dependency) : Bool :=
  s.dependencies.contains d

end DependencySet

end NativeBuild
