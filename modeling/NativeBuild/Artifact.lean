import NativeBuild.Channel
import NativeBuild.Path

namespace NativeBuild

structure Artifact where
  producer : ComponentId
  file : Path
  deriving DecidableEq, Inhabited

/-- What to resolve: the channel, and attributes that an artifact's variant must carry on top of the
channel's. Components are selected by the channel alone; one without a variant for the view adds
nothing to it. -/
structure Request where
  channel : Channel
  view : Option AttributeSet
  deriving DecidableEq, Inhabited

namespace Channel

def request (c : Channel) : Request := ⟨c, none⟩

def artifactView (c : Channel) (view : AttributeSet) : Request := ⟨c, some view⟩

end Channel

def Request.selection (r : Request) : AttributeSet :=
  match r.view with
  | some view => r.channel.attributes.merge view
  | none => r.channel.attributes

abbrev Resolution := Except ResolutionFailure (List Artifact)

/-- What resolves requests: its answer to a request may depend on how many were made before. -/
abbrev Engine := Nat → Request → Resolution

end NativeBuild
