import NativeBuild.Document.Shape
import NativeBuild.Toml.Datetime

namespace NativeBuild.Toml

open Shape

def datetimeText : Shape String
  | .scalar (.string text) _ => if isDatetime text then .ok text else mismatch .noDatetime
  | d => wrongType d "string containing a datetime"

mutual

/-- A value of any type. The first key of a table says whether it is a date or time; then it has to
show the text of one, and the entries after that one do not count. -/
def anyValue : Shape Document
  | .scalar scalar span => .ok (.scalar scalar span)
  | .list items span => return .list (← anyItems items) span
  | .table [] span => .ok (.table [] span)
  | .table ((key, first) :: rest) span => do
    let place := first.span.or key.span
    if key.text = Document.datetimeKey then
      return .scalar (.datetime (← located place (datetimeText first))) span
    else
      let first ← located place (anyValue first)
      return .table ((key, first) :: (← anyEntries rest)) span

def anyItems : List Document → Except ShapeError (List Document)
  | [] => .ok []
  | item :: rest => do
    let item ← located item.span (anyValue item)
    return item :: (← anyItems rest)

def anyEntries : List (Key × Document) → Except ShapeError (List (Key × Document))
  | [] => .ok []
  | (key, item) :: rest => do
    let item ← located (item.span.or key.span) (anyValue item)
    return (key, item) :: (← anyEntries rest)

end

def hasValues (d : Document) : Bool :=
  match d.entries? with
  | some entries => (anyEntries entries).isOk
  | none => false

end NativeBuild.Toml
