import NativeBuild.Document
import NativeBuild.Path

namespace NativeBuild

inductive Mismatch
  | missingField (name : String)
  | unknownField (name : String) (known : List String)
  | unknownVariant (name : String) (known : List String)
  | wrongType (found expected : String)
  | wrongLength (length : Nat) (expected : String)
  | wrongValue (found expected : String)
  | noDatetime
  deriving DecidableEq, Inhabited

namespace Mismatch

def inBackticks (name : String) : String := "`" ++ name ++ "`"

def oneOf : List String → String
  | [a] => inBackticks a
  | [a, b] => inBackticks a ++ " or " ++ inBackticks b
  | names => "one of " ++ ", ".intercalate (names.map inBackticks)

def message : Mismatch → String
  | .missingField name => "missing field " ++ inBackticks name
  | .unknownField name known =>
    "unknown field " ++ inBackticks name ++ ", expected " ++ oneOf known
  | .unknownVariant name known =>
    "unknown variant " ++ inBackticks name ++ ", expected " ++ oneOf known
  | .wrongType found expected => s!"invalid type: {found}, expected {expected}"
  | .wrongLength length expected => s!"invalid length {length}, expected {expected}"
  | .wrongValue found expected => s!"invalid value: {found}, expected {expected}"
  | .noDatetime => "failed to parse datetime"

end Mismatch

structure ShapeError where
  cause : Mismatch
  span : Option Span
  deriving DecidableEq, Inhabited

abbrev Shape (α : Type) := Document → Except ShapeError α

namespace Shape

def mismatch {α : Type} (cause : Mismatch) : Except ShapeError α :=
  .error ⟨cause, none⟩

def wrongType {α : Type} (d : Document) (expected : String) : Except ShapeError α :=
  mismatch (.wrongType d.description expected)

def located {α : Type} (span : Option Span) : Except ShapeError α → Except ShapeError α
  | .error e => .error ⟨e.cause, e.span.or span⟩
  | .ok a => .ok a

def inside {α : Type} (shape : Shape α) : Shape α := fun d => located d.span (shape d)

def string : Shape String
  | .scalar (.string value) _ => .ok value
  | d => wrongType d "a string"

def boolean : Shape Bool
  | .scalar (.boolean value) _ => .ok value
  | d => wrongType d "a boolean"

def path : Shape Path
  | .scalar (.string value) _ => .ok ⟨value⟩
  | d => wrongType d "path string"

def listOf {α : Type} (item : Shape α) : Shape (List α)
  | .list items _ => items.mapM (inside item)
  | d => wrongType d "a sequence"

structure RecordField (σ : Type) where
  name : String
  required : Bool
  read : σ → Document → Except ShapeError σ

def required {σ α : Type} (name : String) (shape : Shape α) (set : σ → α → σ) : RecordField σ :=
  ⟨name, true, fun s d => return set s (← shape d)⟩

def optional {σ α : Type} (name : String) (shape : Shape α) (set : σ → α → σ) : RecordField σ :=
  ⟨name, false, fun s d => return set s (← shape d)⟩

/-- What is expected of a record: what it is called, its fields in order, and whether it may have
others. `surplus` says what was expected of a list with more items than there are fields, if that
is a mismatch. -/
structure RecordShape (σ : Type) where
  title : String
  fields : List (RecordField σ)
  closed : Bool
  surplus : Option (Nat → String)

namespace RecordShape

variable {σ : Type}

def names (r : RecordShape σ) : List String :=
  r.fields.map (·.name)

def readEntry (r : RecordShape σ) (s : σ) (entry : Key × Document) : Except ShapeError σ :=
  match r.fields.find? (·.name == entry.1.text) with
  | some f => located (entry.2.span.or entry.1.span) (f.read s entry.2)
  | none =>
    if r.closed then .error ⟨.unknownField entry.1.text r.names, entry.1.span⟩ else .ok s

def readEntries (r : RecordShape σ) (blank : σ) (entries : List (Key × Document)) :
    Except ShapeError σ := do
  let s ← entries.foldlM r.readEntry blank
  -- A field that is missing is told after all that is wrong with the entries.
  match r.fields.find? fun f => f.required && !entries.any (·.1.text == f.name) with
  | some f => mismatch (.missingField f.name)
  | none => return s

def counted (n : Nat) : String :=
  if n = 1 then "1 element" else s!"{n} elements"

def readItems (r : RecordShape σ) (count : Nat) : List (RecordField σ) → σ → List Document →
    Except ShapeError σ
  | [], s, [] => .ok s
  | [], s, rest =>
    match r.surplus with
    | some expected =>
      mismatch (.wrongLength (count + rest.length) (expected r.fields.length))
    | none => .ok s
  | f :: fields, s, [] =>
    if f.required then
      mismatch (.wrongLength count (r.title ++ " with " ++ counted r.fields.length))
    else r.readItems count fields s []
  | f :: fields, s, item :: rest => do
    r.readItems (count + 1) fields (← located item.span (f.read s item)) rest

def read (r : RecordShape σ) (blank : σ) : Shape σ := fun d =>
  match d, d.entries? with
  | .list items _, _ => r.readItems 0 r.fields blank items
  | _, some entries => r.readEntries blank entries
  | _, none => wrongType d r.title

end RecordShape

end Shape

end NativeBuild
