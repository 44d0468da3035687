import NativeBuild.Toml.Literal
import NativeBuild.Toml.Table

namespace NativeBuild.Toml

open Scanner

def maxDepth : Nat := 79

def maxKeyParts : Nat := 79

def isBareKeyChar (c : Char) : Bool :=
  c.isAlphanum || c == '-' || c == '_'

def simpleKey : Scanner Key := do
  let (text, span) ← spanned do
    match ← peek with
    | some c =>
      if c == quote then basicString
      else if c == apostrophe then literalString
      else return String.ofList (← takeWhile1 isBareKeyChar)
    | none => giveUp
  return ⟨text, some span⟩

def dottedKey : Scanner (List Key × Key) := do
  spaces
  let first ← simpleKey
  spaces
  let others ← repeated do
    if ← tokenIf ['.'] then
      spaces
      let part ← simpleKey
      spaces
      return some part
    else return none
  if maxKeyParts < others.length + 1 then giveUp
  let parts := first :: others
  return (parts.dropLast, others.getLastD first)

def items (value : Scanner Document) : Scanner (List Document) := do
  let found ← repeated do
    blankLines
    if (← peek) == some ']' then return none
    let v ← value
    blankLines
    if ← tokenIf [','] then return some v
    if (← peek) == some ']' then return some v
    giveUp
  char ']'
  return found

def pairs (value : Scanner Document) : Scanner Table := do
  spaces
  if ← tokenIf ['\x7d'] then return .mk .explicit none []
  let found ← repeated do
    if (← peek) == some '\x7d' then return none
    let (path, key) ← dottedKey
    char '='
    spaces
    let v ← value
    spaces
    if ← tokenIf [','] then
      spaces
      if (← peek) == some '\x7d' then giveUp
      return some (path, key, v)
    if (← peek) == some '\x7d' then return some (path, key, v)
    giveUp
  char '\x7d'
  let add (t : Table) (e : List Key × Key × Document) : Option Table := t.addValue e.1 e.2.1 e.2.2
  match found.foldlM add (.mk .explicit none []) with
  | some t => return t
  | none => giveUp

def valueOver (inner : Option (Scanner Document)) : Scanner Document := do
  match ← peek, inner with
  | some '[', some inner =>
    let (found, span) ← spanned do char '['; items inner
    return .list found (some span)
  | some '\x7b', some inner =>
    let (found, span) ← spanned do char '\x7b'; pairs inner
    return .table (documentEntries found.entries) (some span)
  | some c, _ =>
    if c == quote || c == apostrophe then
      let (text, span) ← spanned anyString
      return .scalar (.string text) (some span)
    else
      let (scalar, span) ← spanned bareScalar
      return .scalar scalar (some span)
  | none, _ => giveUp

def value : Nat → Scanner Document
  | 0 => valueOver none
  | depth + 1 => valueOver (some (value depth))

inductive Line
  | blank
  | entry (path : List Key) (key : Key) (value : Document)
  | header (path : List Key) (key : Key) (span : Span)
  | listHeader (path : List Key) (key : Key) (span : Span)

def bracketed (brackets : Nat) : Scanner ((List Key × Key) × Span) := do
  let found ← spanned do
    token (List.replicate brackets '[')
    let key ← dottedKey
    token (List.replicate brackets ']')
    return key
  restOfLine
  return found

def line : Scanner (Option Line) := do
  spaces
  match ← peek with
  | none => return none
  | some '#' => restOfLine; return some .blank
  | some '\n' | some '\r' => lineEnd; return some .blank
  | some '[' =>
    if ['[', '['].isPrefixOf (← ahead) then
      let ((path, key), span) ← bracketed 2
      return some (.listHeader path key span)
    else
      let ((path, key), span) ← bracketed 1
      return some (.header path key span)
  | some _ =>
    let (path, key) ← dottedKey
    char '='
    spaces
    let v ← value maxDepth
    restOfLine
    return some (.entry path key v)

inductive Position
  | atRoot
  | below (path : List Key) (key : Key) (table : Table)
  | among (path : List Key) (key : Key) (table : Table)

structure Progress where
  root : Table
  position : Position

namespace Progress

def start : Progress := ⟨.root, .atRoot⟩

def settle (p : Progress) : Option Table :=
  match p.position with
  | .atRoot => some p.root
  | .below path key table => p.root.close path key table
  | .among path key table => p.root.append path key table

def extend (t : Table) (path : List Key) (key : Key) (v : Document) : Option Table :=
  -- The table reaches to the end of what was added last.
  (t.reach v).addValue path key v

def add (p : Progress) : Line → Option Progress
  | .blank => some p
  | .entry path key v => do
    match p.position with
    | .atRoot => return ⟨← extend p.root path key v, .atRoot⟩
    | .below place name t => return ⟨p.root, .below place name (← extend t path key v)⟩
    | .among place name t => return ⟨p.root, .among place name (← extend t path key v)⟩
  | .header path key span => do
    let (root, table) ← (← p.settle).opened path key span
    return ⟨root, .below path key table⟩
  | .listHeader path key span => do
    let root ← (← p.settle).reserved path key
    return ⟨root, .among path key (.mk .explicit (some span) [])⟩

end Progress

def byteOrderMark : Char := '\ufeff'

def lines : Scanner (List Line) := do
  let _ ← tokenIf [byteOrderMark]
  let found ← repeated line
  if (← peek).isSome then giveUp
  return found

def parse? (text : String) : Option Document := do
  let (found, _) ← lines ⟨text.toList, 0⟩
  let progress ← found.foldlM Progress.add .start
  return (← progress.settle).document

end NativeBuild.Toml
