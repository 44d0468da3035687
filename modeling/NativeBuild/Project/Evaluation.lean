import NativeBuild.Deferred
import NativeBuild.ModuleMap
import NativeBuild.Project

namespace NativeBuild

structure Slots where
  compile : Deferred Resolution
  link : Deferred Resolution
  runtime : Deferred Resolution
  moduleMaps : Deferred (Except BuildError (List ModuleMap))
  deriving Inhabited

namespace Slots

def fresh : Slots := ⟨.unevaluated, .unevaluated, .unevaluated, .unevaluated⟩

def get (s : Slots) : Purpose → Deferred Resolution
  | .compile => s.compile
  | .link => s.link
  | .runtime => s.runtime

def set (s : Slots) (cell : Deferred Resolution) : Purpose → Slots
  | .compile => { s with compile := cell }
  | .link => { s with link := cell }
  | .runtime => { s with runtime := cell }

end Slots

structure Evaluation where
  calls : Nat
  moduleName : Deferred String
  slots : Nat → Slots

namespace Evaluation

def start (p : Project) : Evaluation where
  calls := 0
  -- A name that the manifest gives needs no computing.
  moduleName := match p.moduleName with
    | .given name => .ready name
    | .derived _ => .unevaluated
  slots := fun _ => .fresh

def setSlots (s : Evaluation) (position : Nat) (slots : Slots) : Evaluation :=
  { s with slots := fun i => if i = position then slots else s.slots i }

end Evaluation

abbrev Reading := StateM Evaluation

def ask (engine : Engine) (q : Request) : Reading Resolution := do
  let s ← get
  set { s with calls := s.calls + 1 }
  return engine s.calls q

namespace Project

def readModuleName (p : Project) : Reading String := do
  let (name, cell) ← (← get).moduleName.read (return p.moduleName.text)
  modify fun s => { s with moduleName := cell }
  return name

end Project

namespace Descriptor

def readArtifacts (d : Descriptor) (engine : Engine) (purpose : Purpose) : Reading Resolution := do
  let cell := ((← get).slots d.position).get purpose
  let (answer, cell) ← cell.read (ask engine (d.channels.get purpose).request)
  modify fun s => s.setSlots d.position ((s.slots d.position).set cell purpose)
  return answer

def readModuleMaps (d : Descriptor) (engine : Engine) :
    Reading (Except BuildError (List ModuleMap)) := do
  let cell := ((← get).slots d.position).moduleMaps
  let (maps, cell) ← cell.read do
    return ModuleMap.ofResolution (← ask engine (ModuleMap.request d.channels.compile))
  modify fun s => s.setSlots d.position { s.slots d.position with moduleMaps := cell }
  return maps

def isResolved (d : Descriptor) (purpose : Purpose) : Reading Bool :=
  return ((← get).slots d.position |>.get purpose).isEvaluated

def moduleMapsEvaluated (d : Descriptor) : Reading Bool :=
  return ((← get).slots d.position).moduleMaps.isEvaluated

def readModuleFile (d : Descriptor) (p : Project) : Reading Path :=
  return d.moduleFile (← p.readModuleName)

end Descriptor

end NativeBuild
