import NativeBuild.Attribute
import NativeBuild.Document
import NativeBuild.Failure

namespace NativeBuild.AttributeValue

def flagNames : List String :=
  [Attribute.debuggable.name, Attribute.optimized.name, Attribute.requiresModuleMap.name]

def ofEntry (name : String) (raw : Document) : Except BuildError AttributeValue :=
  if name = Attribute.usage.name then
    match raw with
    | .scalar (.string text) _ =>
      match Usage.ofLabel? text with
      | some u => .ok (.usage u)
      | none => .error (.invalidAttribute name (Usage.unknownLabel text))
    | other => .error (.invalidAttribute name s!"expected a string, found {other.typeName}")
  else if name ∈ flagNames then
    match raw with
    | .scalar (.boolean value) _ => .ok (.flag value)
    | other => .error (.invalidAttribute name s!"expected a boolean, found {other.typeName}")
  else .error (.invalidAttribute name "unknown attribute")

end NativeBuild.AttributeValue
