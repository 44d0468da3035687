import NativeBuild.Project.Evaluation

namespace NativeBuild

inductive Slot
  | artifacts (purpose : Purpose)
  | moduleMaps
  deriving DecidableEq, Inhabited

inductive Answer
  | artifacts (answer : Resolution)
  | moduleMaps (answer : Except BuildError (List ModuleMap))
  | evaluated (value : Bool)
  | moduleName (name : String)
  | moduleFile (file : Path)

inductive Read (p : Project)
  | answer (binary : Fin p.binaries.length) (slot : Slot)
  | evaluated (binary : Fin p.binaries.length) (slot : Slot)
  | moduleName
  | moduleFile (binary : Fin p.binaries.length)

def Read.slot? {p : Project} : Read p → Option (Fin p.binaries.length × Slot)
  | .answer i slot => some (i, slot)
  | .evaluated .. | .moduleName | .moduleFile _ => none

namespace Descriptor

def readSlot (d : Descriptor) (engine : Engine) : Slot → Reading Answer
  | .artifacts purpose => return .artifacts (← d.readArtifacts engine purpose)
  | .moduleMaps => return .moduleMaps (← d.readModuleMaps engine)

def slotEvaluated (d : Descriptor) : Slot → Reading Bool
  | .artifacts purpose => d.isResolved purpose
  | .moduleMaps => d.moduleMapsEvaluated

end Descriptor

namespace Project

def binary (p : Project) (i : Fin p.binaries.length) : Descriptor := p.binaries.get i

def read (p : Project) (engine : Engine) : Read p → Reading Answer
  | .answer i slot => (p.binary i).readSlot engine slot
  | .evaluated i slot => return .evaluated (← (p.binary i).slotEvaluated slot)
  | .moduleName => return .moduleName (← p.readModuleName)
  | .moduleFile i => return .moduleFile (← (p.binary i).readModuleFile p)

def readInTurn (p : Project) (engine : Engine) (reads : List (Read p)) :
    Reading (List (Read p × Answer)) :=
  reads.mapM fun q => return (q, ← p.read engine q)

end Project

end NativeBuild
