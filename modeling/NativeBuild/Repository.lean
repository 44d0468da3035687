import NativeBuild.Artifact

namespace NativeBuild

structure Variant where
  name : String
  attributes : AttributeSet
  files : List Path
  dependencies : List Dependency
  deriving DecidableEq, Inhabited

structure Component where
  id : ComponentId
  variants : List Variant
  deriving DecidableEq, Inhabited

def Component.matching (c : Component) (requested : AttributeSet) : List Variant :=
  c.variants.filter fun v => requested.isSatisfiedBy v.attributes

def Component.artifacts (c : Component) (v : Variant) : List Artifact :=
  v.files.map (⟨c.id, ·⟩)

structure Repository where
  components : List Component
  deriving DecidableEq, Inhabited

structure Node where
  component : Component
  variant : Variant
  deriving DecidableEq, Inhabited

namespace Repository

def empty : Repository := ⟨[]⟩

def add (r : Repository) (c : Component) : Repository :=
  ⟨r.components ++ [c]⟩

/-- The component a dependency stands for: the first one it selects. -/
def find? (r : Repository) (d : Dependency) : Option Component :=
  r.components.find? fun c => d.selects c.id

/-- The only variant with the requested attributes, or none. More than one is a failure. -/
def choose (c : Component) (requested : AttributeSet) :
    Except ResolutionFailure (Option Variant) :=
  match c.matching requested with
  | [] => .ok none
  | [v] => .ok (some v)
  | vs => .error (.ambiguousVariants c.id.displayName requested.text vs.length)

def select (channel : Channel) (c : Component) : Except ResolutionFailure Variant := do
  match ← choose c channel.attributes with
  | some v => return v
  | none => throw (.noMatchingVariant c.id.displayName channel.attributes.text channel.name)

def reached (nodes : List Node) (id : ComponentId) : Bool :=
  nodes.any (·.component.id == id)

def unreached (r : Repository) (nodes : List Node) : List Component :=
  r.components.filter fun c => !reached nodes c.id

end Repository

end NativeBuild
