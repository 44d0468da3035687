import NativeBuild.Document

namespace NativeBuild.Toml

/-- How a table came about; that decides who may add to it later. -/
inductive Origin
  | explicit
  | implied
  | dotted
  deriving DecidableEq, Inhabited

mutual

inductive Item
  | value (value : Document)
  | table (table : Table)
  | tables (earlier : List Table) (last : Table)

inductive Table
  | mk (origin : Origin) (span : Option Span) (entries : List (Key × Item))

end

instance : Inhabited Table := ⟨.mk .explicit none []⟩

namespace Table

def origin : Table → Origin
  | .mk origin _ _ => origin

def span : Table → Option Span
  | .mk _ span _ => span

def entries : Table → List (Key × Item)
  | .mk _ _ entries => entries

def root : Table := .mk .explicit (some ⟨0, 0⟩) []

def get? (t : Table) (key : String) : Option Item :=
  (t.entries.find? (·.1.text == key)).map (·.2)

def setItem (key : Key) (item : Item) : List (Key × Item) → List (Key × Item)
  | [] => [(key, item)]
  | e :: rest => if e.1.text = key.text then (e.1, item) :: rest else e :: setItem key item rest

def set (t : Table) (key : Key) (item : Item) : Table :=
  .mk t.origin t.span (setItem key item t.entries)

def erase (t : Table) (key : String) : Table :=
  .mk t.origin t.span (t.entries.filter (·.1.text != key))

def reach (t : Table) (value : Document) : Table :=
  match t.span, value.span with
  | some s, some v => .mk t.origin (some ⟨s.start, v.stop⟩) t.entries
  | _, _ => t

/-- Changes the table at the end of a path of keys, creating those that are missing on the way. A
dotted path leads neither through values nor through tables that are explicit; a path of headers
goes into the last of several tables. -/
def update (dotted : Bool) (change : Table → Option Table) : List Key → Table → Option Table
  | [], t => change t
  | key :: path, t => do
    match t.get? key.text with
    | none =>
      let new := Table.mk (if dotted then .dotted else .implied) none []
      return t.set key (.table (← update dotted change path new))
    | some (.value _) => none
    | some (.tables earlier last) =>
      return t.set key (.tables earlier (← update dotted change path last))
    | some (.table below) =>
      if dotted && below.origin == .explicit then none
      else return t.set key (.table (← update dotted change path below))

def addValue (t : Table) (path : List Key) (key : Key) (value : Document) : Option Table :=
  t.update true (fun below =>
    -- What dotted keys brought about takes dotted keys only, and any other table none of them.
    if (below.origin == .dotted) == path.isEmpty || (below.get? key.text).isSome then none
    else some (below.set key (.value value))) path

def opened (t : Table) (path : List Key) (key : Key) (span : Span) : Option (Table × Table) := do
  let taken ← find path t
  let t ← t.update false (fun above => some (above.erase key.text)) path
  return (t, .mk .explicit (some span) taken)
where
  find : List Key → Table → Option (List (Key × Item))
    | [], above =>
      match above.get? key.text with
      | none => some []
      -- Headers may open a table once, and only if no more than headers mentioned it before.
      | some (.table below) => if below.origin == .implied then some below.entries else none
      | some _ => none
    | k :: path, above =>
      match above.get? k.text with
      | none => some []
      | some (.value _) => none
      | some (.table below) => find path below
      | some (.tables _ last) => find path last

def close (t : Table) (path : List Key) (key : Key) (done : Table) : Option Table :=
  t.update false (fun above => some (above.set key (.table done))) path

def mayAppend (above : Table) (key : String) : Bool :=
  match above.get? key with
  | none => true
  | some (.tables ..) => true
  | some _ => false

def reserved (t : Table) (path : List Key) (key : Key) : Option Table :=
  t.update false (fun above => if above.mayAppend key.text then some above else none) path

def append (t : Table) (path : List Key) (key : Key) (done : Table) : Option Table :=
  t.update false (fun above =>
    match above.get? key.text with
    | none => some (above.set key (.tables [] done))
    | some (.tables earlier last) => some (above.set key (.tables (earlier ++ [last]) done))
    | some _ => none) path

end Table

def hull (first last : Option Span) : Option Span :=
  match first, last with
  | some a, some b => some ⟨a.start, b.stop⟩
  | _, _ => none

mutual

def Item.document : Item → Document
  | .value value => value
  | .table table => table.document
  | .tables earlier last =>
    let first := match earlier with
      | [] => last.span
      | t :: _ => t.span
    .list (documents earlier ++ [last.document]) (hull first last.span)

def Table.document : Table → Document
  | .mk _ span entries => .table (documentEntries entries) span

def documents : List Table → List Document
  | [] => []
  | t :: rest => t.document :: documents rest

def documentEntries : List (Key × Item) → List (Key × Document)
  | [] => []
  | (key, item) :: rest => (key, item.document) :: documentEntries rest

end

end NativeBuild.Toml
