import NativeBuild.Dict

namespace NativeBuild

inductive Usage
  | swiftInterface
  | nativeLink
  | nativeRuntime
  deriving DecidableEq, Inhabited

namespace Usage

def label : Usage → String
  | .swiftInterface => "swift-interface"
  | .nativeLink => "native-link"
  | .nativeRuntime => "native-runtime"

def all : List Usage := [.swiftInterface, .nativeLink, .nativeRuntime]

def ofLabel? (text : String) : Option Usage :=
  all.find? (·.label = text)

@[simp] theorem ofLabel?_label (u : Usage) : ofLabel? u.label = some u := by
  cases u <;> decide

def unknownLabel (text : String) : String :=
  s!"unknown usage '{text}' (expected swift-interface, native-link or native-runtime)"

end Usage

inductive AttributeValue
  | flag (value : Bool)
  | usage (value : Usage)
  deriving DecidableEq, Inhabited

namespace AttributeValue

def text : AttributeValue → String
  | .flag value => toString value
  | .usage value => value.label

def flag? : AttributeValue → Option Bool
  | .flag value => some value
  | .usage _ => none

def usage? : AttributeValue → Option Usage
  | .flag _ => none
  | .usage value => some value

end AttributeValue

structure Attribute (α : Type) where
  name : String
  wrap : α → AttributeValue
  unwrap : AttributeValue → Option α

namespace Attribute

def usage : Attribute Usage := ⟨"usage", .usage, AttributeValue.usage?⟩
def debuggable : Attribute Bool := ⟨"debuggable", .flag, AttributeValue.flag?⟩
def optimized : Attribute Bool := ⟨"optimized", .flag, AttributeValue.flag?⟩

def requiresModuleMap : Attribute Bool := ⟨"requires-module-map", .flag, AttributeValue.flag?⟩

end Attribute

abbrev AttributeSet := Dict String AttributeValue

namespace AttributeSet

def declare {α : Type} (s : AttributeSet) (key : Attribute α) (value : α) : AttributeSet :=
  s.insert key.name (key.wrap value)

/-- The value of an attribute; a value stored under its name with another type does not count. -/
def value? {α : Type} (s : AttributeSet) (key : Attribute α) : Option α :=
  (s.get? key.name).bind key.unwrap

def declares {α : Type} (s : AttributeSet) (key : Attribute α) : Bool :=
  s.contains key.name

def isSatisfiedBy (requested candidate : AttributeSet) : Bool :=
  requested.entries.all fun e => candidate.get? e.1 == some e.2

def text (s : AttributeSet) : String :=
  "\x7b" ++ ", ".intercalate (s.entries.map fun e => e.1 ++ "=" ++ e.2.text) ++ "\x7d"

end AttributeSet

end NativeBuild
