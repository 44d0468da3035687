import NativeBuild.Command.Run

namespace NativeBuild

inductive Worker
  | idle
  | answered (answer : Resolution)
  | done (maps : Except BuildError (List ModuleMap))

def Worker.maps? : Worker → Option (Except BuildError (List ModuleMap))
  | .done maps => some maps
  | .idle | .answered _ => none

/-- What was computed so far, and the workers of selected binaries. A worker that finds no maps in
the slot of its binary asks the engine, and fills the slot later on; in between others may go on. -/
structure Workers (selected : List Descriptor) where
  evaluation : Evaluation
  worker : Fin selected.length → Worker

inductive Workers.Event (selected : List Descriptor)
  | begin (worker : Fin selected.length)
  | finish (worker : Fin selected.length)

namespace Workers

variable {selected : List Descriptor}

def start (p : Project) (selected : List Descriptor) : Workers selected :=
  ⟨.start p, fun _ => .idle⟩

def move (s : Workers selected) (i : Fin selected.length) (w : Worker) (evaluation : Evaluation) :
    Workers selected :=
  ⟨evaluation, fun j => if j = i then w else s.worker j⟩

def step (engine : Engine) (s : Workers selected) : Event selected → Option (Workers selected)
  | .begin i =>
    let d := selected.get i
    match s.worker i, (s.evaluation.slots d.position).moduleMaps with
    | .idle, .evaluated maps => some (s.move i (.done maps) s.evaluation)
    | .idle, .unevaluated =>
      let (answer, evaluation) :=
        (ask engine (ModuleMap.request d.channels.compile)).run s.evaluation
      some (s.move i (.answered answer) evaluation)
    | _, _ => none
  | .finish i =>
    let d := selected.get i
    match s.worker i with
    | .answered answer =>
      let maps := ModuleMap.ofResolution answer
      let slots := { s.evaluation.slots d.position with moduleMaps := .evaluated maps }
      some (s.move i (.done maps) (s.evaluation.setSlots d.position slots))
    | _ => none

def run (engine : Engine) (s : Workers selected) (events : List (Event selected)) :
    Option (Workers selected) :=
  events.foldlM (step engine) s

def results? (s : Workers selected) : Option (List (String × Except BuildError (List ModuleMap))) :=
  (List.finRange selected.length).mapM fun i =>
    return ((selected.get i).name, ← (s.worker i).maps?)

end Workers

def Command.tell (json : Bool) (results : List (String × Except BuildError (List ModuleMap))) :
    Outcome :=
  outcome do return .done (moduleMapsText json (← collect results)) ""

end NativeBuild
