import NativeBuild.Channel.Callers

namespace NativeBuild

def obtainChannel (c : Channel) : Registering Channel := do
  match (← get).obtain c with
  | .ok (given, r) =>
    set r
    return given
  | .error e => throw e

def obtainChannels (cs : List Channel) : StateM Registry (List (Except BuildError Channel)) :=
  cs.mapM fun c => (obtainChannel c).run

end NativeBuild
