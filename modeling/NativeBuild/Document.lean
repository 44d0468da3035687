import NativeBuild.Text.Quoted

namespace NativeBuild

structure Span where
  start : Nat
  stop : Nat
  deriving DecidableEq, Inhabited

/-- Values without parts. A floating-point number is kept as its shortest text. -/
inductive Scalar
  | null
  | boolean (value : Bool)
  | integer (value : Int)
  | float (text : String)
  | string (value : String)
  | datetime (text : String)
  deriving DecidableEq, Inhabited

structure Key where
  text : String
  span : Option Span
  deriving DecidableEq, Inhabited

inductive Document
  | scalar (value : Scalar) (span : Option Span)
  | list (items : List Document) (span : Option Span)
  | table (entries : List (Key × Document)) (span : Option Span)
  deriving Inhabited

namespace Document

def span : Document → Option Span
  | .scalar _ span => span
  | .list _ span => span
  | .table _ span => span

def typeName : Document → String
  | .scalar .null _ => "null"
  | .scalar (.boolean _) _ => "boolean"
  | .scalar (.integer _) _ => "integer"
  | .scalar (.float _) _ => "float"
  | .scalar (.string _) _ => "string"
  | .scalar (.datetime _) _ => "datetime"
  | .list .. => "array"
  | .table .. => "table"

def description : Document → String
  | .scalar .null _ => "null"
  | .scalar (.boolean value) _ => s!"boolean `{value}`"
  | .scalar (.integer value) _ => s!"integer `{value}`"
  | .scalar (.float text) _ => s!"floating point `{text}`"
  | .scalar (.string value) _ => "string " ++ Text.quoted value
  | .scalar (.datetime _) _ => "map"
  | .list .. => "sequence"
  | .table .. => "map"

def datetimeKey : String := "$__toml_private_datetime"

def entries? : Document → Option (List (Key × Document))
  | .table entries _ => some entries
  | .scalar (.datetime text) _ => some [(⟨datetimeKey, none⟩, .scalar (.string text) none)]
  | _ => none

end Document

end NativeBuild
