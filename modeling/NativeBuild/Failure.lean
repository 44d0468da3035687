namespace NativeBuild

inductive ResolutionFailure
  | missingComponent (dependency channel : String)
  | noMatchingVariant (component requested channel : String)
  | ambiguousVariants (component requested : String) (candidates : Nat)
  | dependencyCycle (component : String)
  deriving DecidableEq, Inhabited

def ResolutionFailure.message : ResolutionFailure → String
  | .missingComponent dependency channel =>
    s!"could not resolve '{dependency}' for channel '{channel}': no such component"
  | .noMatchingVariant component requested channel =>
    s!"no variant of {component} matches {requested} (channel '{channel}')"
  | .ambiguousVariants component requested candidates =>
    s!"{candidates} variants of {component} match {requested}; cannot choose between them"
  | .dependencyCycle component => s!"dependency cycle involving {component}"

inductive BuildError
  | unclassifiableProducer (displayName kind : String)
  | resolution (failure : ResolutionFailure)
  | channelConflict (name : String)
  | invalidDependency (text reason : String)
  | invalidAttribute (name reason : String)
  | invalidModuleName (name reason : String)
  | projectRoot (path reason : String)
  deriving DecidableEq, Inhabited

def BuildError.message : BuildError → String
  | .unclassifiableProducer displayName kind =>
    s!"could not determine the name of {displayName}: unknown component identifier type: {kind}"
  | .resolution failure => failure.message
  | .channelConflict name =>
    s!"channel '{name}' is already registered with a different definition"
  | .invalidDependency text reason => s!"invalid dependency notation '{text}': {reason}"
  | .invalidAttribute name reason => s!"invalid attribute '{name}': {reason}"
  | .invalidModuleName name reason => s!"invalid module name '{name}': {reason}"
  | .projectRoot path reason => s!"cannot resolve project root '{path}': {reason}"

end NativeBuild
