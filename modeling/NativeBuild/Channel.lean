import NativeBuild.Attribute
import NativeBuild.Binary
import NativeBuild.Dependency
import NativeBuild.Naming

namespace NativeBuild

inductive Purpose
  | compile
  | link
  | runtime
  deriving DecidableEq, Inhabited

namespace Purpose

def all : List Purpose := [.compile, .link, .runtime]

def label : Purpose → String
  | .compile => "compile"
  | .link => "link"
  | .runtime => "runtime"

def stem : Purpose → String
  | .compile => "swiftCompile"
  | .link => "nativeLink"
  | .runtime => "nativeRuntime"

def usage : Purpose → Usage
  | .compile => .swiftInterface
  | .link => .nativeLink
  | .runtime => .nativeRuntime

def ofLabel? (text : String) : Option Purpose :=
  all.find? (·.label = text)

@[simp] theorem ofLabel?_label (p : Purpose) : ofLabel? p.label = some p := by
  cases p <;> decide

def unknownLabel (text : String) : String :=
  s!"unknown purpose '{text}' (expected compile, link or runtime)"

end Purpose

/-- A named set of dependencies together with the attributes to select variants by. A binary has one
each to compile, to link and to run. -/
structure Channel where
  name : String
  base : DependencySet
  attributes : AttributeSet
  consumable : Bool
  deriving DecidableEq, Inhabited

namespace Channel

def new (name : String) (base : DependencySet) (attributes : AttributeSet) : Channel :=
  ⟨name, base, attributes, false⟩

def dependencies (c : Channel) : List Dependency :=
  c.base.dependencies

def text (c : Channel) : String :=
  s!"{c.name} extends {c.base.name} {c.attributes.text}"

def requestedAttributes (purpose : Purpose) (binary : BinaryIdentity) : AttributeSet :=
  AttributeSet.declare (AttributeSet.declare (AttributeSet.declare .empty
    .usage purpose.usage) .debuggable binary.debuggable) .optimized binary.optimized

def ofBinary (purpose : Purpose) (binary : BinaryIdentity) (base : DependencySet) : Channel :=
  new (withStem purpose.stem binary.name) base (requestedAttributes purpose binary)

end Channel

end NativeBuild
