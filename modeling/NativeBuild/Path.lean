namespace NativeBuild

structure Path where
  text : String
  deriving DecidableEq, Inhabited

namespace Path

inductive Anchor
  | root
  | here
  | bare
  deriving DecidableEq

inductive Step
  | root
  | current
  | parent
  | name (name : String)
  deriving DecidableEq, Inhabited

namespace Step

def rank : Step → Nat
  | .root => 0
  | .current => 1
  | .parent => 2
  | .name _ => 3

def label : Step → String
  | .root => "/"
  | .current => "."
  | .parent => ".."
  | .name n => n

instance : Ord Step where
  compare := compareLex (compareOn rank) (compareOn label)

instance : Std.TransOrd Step :=
  inferInstanceAs (Std.TransCmp (compareLex (compareOn rank) (compareOn label)))

end Step

def isIdle (segment : List Char) : Bool :=
  segment.isEmpty || segment == ['.']

def divide (cs : List Char) : Anchor × List (List Char) :=
  match cs with
  | '/' :: rest => (.root, rest.splitOn '/')
  | ['.'] => (.here, [])
  | '.' :: '/' :: rest => (.here, rest.splitOn '/')
  | cs => (.bare, cs.splitOn '/')

def assemble : Anchor → List (List Char) → List Char
  | .root, body => '/' :: ['/'].intercalate body
  | .here, [] => ['.']
  | .here, body => '.' :: '/' :: ['/'].intercalate body
  | .bare, body => ['/'].intercalate body

def ofSegment? (segment : List Char) : Option Step :=
  if isIdle segment then none
  else if segment = ['.', '.'] then some .parent
  else some (.name (String.ofList segment))

def Anchor.step? : Anchor → Option Step
  | .root => some .root
  | .here => some .current
  | .bare => none

def steps (p : Path) : List Step :=
  let (anchor, body) := divide p.text.toList
  anchor.step?.toList ++ body.filterMap ofSegment?

def isAbsolute (p : Path) : Bool :=
  p.text.toList.head? == some '/'

def endsInSlash (p : Path) : Bool :=
  p.text.toList.getLast? == some '/'

def join (p q : Path) : Path :=
  if q.isAbsolute then q
  else if p.text = "" || p.endsInSlash then ⟨p.text ++ q.text⟩
  else ⟨p.text ++ "/" ++ q.text⟩

def child (p : Path) (name : String) : Path :=
  p.join ⟨name⟩

def dropIdleEnd (body : List (List Char)) : List (List Char) :=
  (body.reverse.dropWhile isIdle).reverse

/-- The path without its last step, if it has one beyond the root. What comes before that step
stays as it is written. -/
def parent? (p : Path) : Option Path :=
  let (anchor, body) := divide p.text.toList
  match (dropIdleEnd body).reverse, anchor with
  | _ :: front, _ => some ⟨String.ofList (assemble anchor (dropIdleEnd front.reverse))⟩
  | [], .here => some ⟨""⟩
  | [], _ => none

def ascend (p : Path) : Nat → List Path
  | 0 => [p]
  | n + 1 => p :: (match p.parent? with
    | some q => q.ascend n
    | none => [])

def ancestors (p : Path) : List Path :=
  p.ascend p.steps.length

def extend (p : Path) (steps : List Step) : Path :=
  steps.foldl (fun p s => p.child s.label) p

/-- The path as seen from the root, `cwd` being the directory relative paths start from. Idle
segments go, except that a slash at the end stays, and two at the beginning (but not more) stay as
well; `..` stays. An empty path denotes nothing. -/
def absolute? (cwd p : Path) : Option Path :=
  if p.text = "" then none
  else
    let steps := p.steps.dropWhile (· == .current)
    let doubled := "//".toList.isPrefixOf p.text.toList && !"///".toList.isPrefixOf p.text.toList
    let start : Path × List Step :=
      if doubled then (⟨"//"⟩, steps.tail)
      else if p.isAbsolute then (⟨""⟩, steps)
      else (cwd, steps)
    let full := start.1.extend start.2
    some (if p.endsInSlash then full.join ⟨""⟩ else full)

/-- A text that names a directory entry by itself: as a path it is one step to a name, and there is
no separator in it, of whatever system. -/
def isPlainName (name : String) : Bool :=
  (match steps ⟨name⟩ with
    | [.name _] => true
    | _ => false) && !name.toList.contains '/' && !name.toList.contains '\\'

end Path

end NativeBuild
