import NativeBuild.Channel.Registry
import NativeBuild.Manifest.Repository
import NativeBuild.Repository.Cycle
import NativeBuild.Repository.Walk

namespace NativeBuild

inductive ModuleName
  | given (name : String)
  | derived (projectName : String)
  deriving DecidableEq, Inhabited

namespace ModuleName

def check (p : ProjectSection) : Except BuildError ModuleName :=
  match p.moduleName with
  | some name =>
    if isModuleName name then .ok (.given name)
    else .error (.invalidModuleName name "expected letters, digits and underscores")
  | none =>
    if p.name.toList.any Text.isAlphanumeric then .ok (.derived p.name)
    else .error (.invalidModuleName p.name
      "project name has no letters or digits to derive a module name from")

def text : ModuleName → String
  | .given name => name
  | .derived projectName => moduleName projectName

end ModuleName

/-- One binary of a project: what it is, the channels it resolves through, and where its outputs
go. `position` is its place among the project's binaries. -/
structure Descriptor where
  position : Nat
  identity : BinaryIdentity
  channels : BinaryChannels
  objectsDirectory : Path
  modulesDirectory : Path
  moduleMapsDirectory : Path
  deriving DecidableEq, Inhabited

namespace Descriptor

def name (d : Descriptor) : String := d.identity.name

def of (build : Path) (implementation : DependencySet) (position : Nat)
    (identity : BinaryIdentity) : Descriptor where
  position := position
  identity := identity
  channels := .of identity implementation
  objectsDirectory := (build.child "obj").child identity.name
  modulesDirectory := (build.child "modules").child identity.name
  moduleMapsDirectory := (build.child "module-maps").child identity.name

def moduleFile (d : Descriptor) (moduleName : String) : Path :=
  d.modulesDirectory.child (moduleName ++ ".swiftmodule")

end Descriptor

abbrev PathSet := Dict (List Path.Step) Path

def PathSet.ofList (paths : List Path) : PathSet :=
  Dict.ofList (paths.map fun p => (p.steps, p))

structure Project where
  name : String
  root : Path
  moduleName : ModuleName
  implementation : DependencySet
  sources : PathSet
  channels : Registry
  binaries : List Descriptor
  deriving DecidableEq, Inhabited

namespace Project

def binary? (p : Project) (name : String) : Option Descriptor :=
  p.binaries.find? (·.name == name)

def absoluteRoot (cwd root : Path) : Except BuildError Path :=
  match Path.absolute? cwd root with
  | some p => .ok p
  | none => .error (.projectRoot root.text "cannot make an empty path absolute")

def registerAll (binaries : List Descriptor) : Registering Unit :=
  binaries.forM fun b => b.channels.register

def wireAt (m : Manifest) (root : Path) : Except BuildError Project := do
  let moduleName ← ModuleName.check m.project
  let dependencies ← m.implementation.mapM Dependency.parse
  let implementation := DependencySet.ofList "implementation" dependencies
  let build := root.join m.project.buildDirectory
  let binaries := m.binaryIdentities.zipIdx.map fun (identity, i) =>
    Descriptor.of build implementation i identity
  let (registered, channels) := registerAll binaries .empty
  registered
  return { name := m.project.name, root, moduleName, implementation,
           sources := .ofList (m.project.sources.map root.join), channels, binaries }

def wire (cwd : Path) (m : Manifest) (root : Path) : Except BuildError Project := do
  wireAt m (← absoluteRoot cwd root)

def ofManifest (cwd : Path) (m : Manifest) (root : Path) :
    Except BuildError (Project × Repository) := do
  let root ← absoluteRoot cwd root
  let repository ← m.repository root
  repository.validate.mapError .resolution
  return (← wireAt m root, repository)

end Project

end NativeBuild
