import NativeBuild.Channel

namespace NativeBuild

abbrev Registry := Dict String Channel

namespace Registry

/-- Registers a channel, unless an equal one has its name already. Another channel of that name is
a conflict, which leaves the registry as it is. -/
def register (r : Registry) (c : Channel) : Except BuildError Registry :=
  match r.get? c.name with
  | none => .ok (r.insert c.name c)
  | some registered => if registered = c then .ok r else .error (.channelConflict c.name)

end Registry

/-- A computation that registers channels. A failure keeps what was registered before it. -/
abbrev Registering := ExceptT BuildError (StateM Registry)

def registerChannel (c : Channel) : Registering Unit := do
  match (← get).register c with
  | .ok r => set r
  | .error e => throw e

structure BinaryChannels where
  compile : Channel
  link : Channel
  runtime : Channel
  deriving DecidableEq, Inhabited

namespace BinaryChannels

def of (binary : BinaryIdentity) (base : DependencySet) : BinaryChannels where
  compile := .ofBinary .compile binary base
  link := .ofBinary .link binary base
  runtime := .ofBinary .runtime binary base

def get (cs : BinaryChannels) : Purpose → Channel
  | .compile => cs.compile
  | .link => cs.link
  | .runtime => cs.runtime

def toList (cs : BinaryChannels) : List (Purpose × Channel) :=
  Purpose.all.map fun p => (p, cs.get p)

def register (cs : BinaryChannels) : Registering Unit := do
  registerChannel cs.compile
  registerChannel cs.link
  registerChannel cs.runtime

end BinaryChannels

end NativeBuild
