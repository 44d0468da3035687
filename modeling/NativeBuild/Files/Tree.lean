import NativeBuild.Dict
import NativeBuild.Files

namespace NativeBuild

inductive FileEntry
  | directory
  | file (text : String)
  deriving DecidableEq, Inhabited

abbrev Place := List String

/-- Files and directories by their places, and the place relative paths start from. There are
neither links nor permissions. -/
structure FileTree where
  entries : Dict Place FileEntry
  workingPlace : Place
  deriving DecidableEq, Inhabited

namespace FileTree

def maxNameSize : Nat := 255

def maxPathSize : Nat := 4096

def entry? (t : FileTree) : Place → Option FileEntry
  | [] => some .directory
  | place => t.entries.get? place

def rooted (workingPlace : Place) : FileTree :=
  ⟨.ofList ((List.range workingPlace.length).map fun n => (workingPlace.take (n + 1), .directory)),
    workingPlace⟩

def put (t : FileTree) (place : Place) (e : FileEntry) : FileTree :=
  { t with entries := t.entries.insert place e }

def enter (t : FileTree) (place : Place) (segment : List Char) : Except FileError Place :=
  -- Even an idle segment asks for a directory.
  match t.entry? place with
  | none => .error .notFound
  | some (.file _) => .error .notDirectory
  | some .directory =>
    if Path.isIdle segment then .ok place
    else if segment = ['.', '.'] then .ok place.dropLast
    else
      let name := String.ofList segment
      if maxNameSize < name.utf8ByteSize then .error .nameTooLong
      else .ok (place ++ [name])

def pathText (p : Path) : Except FileError (List Char) :=
  let text := p.text.toList
  if text.contains '\x00' then .error .nulCharacter
  else if text.isEmpty then .error .notFound
  else if maxPathSize ≤ p.text.utf8ByteSize then .error .nameTooLong
  else .ok text

def follow (t : FileTree) (text : List Char) : Except FileError Place :=
  (text.splitOn '/').foldlM t.enter (if text.head? = some '/' then [] else t.workingPlace)

def locate (t : FileTree) (p : Path) : Except FileError Place := do
  t.follow (← pathText p)

def lookup (t : FileTree) (p : Path) : Except FileError FileEntry := do
  match t.entry? (← t.locate p) with
  | some e => return e
  | none => throw .notFound

def isDirectory (t : FileTree) (p : Path) : Bool :=
  match t.lookup p with
  | .ok .directory => true
  | _ => false

def isFile (t : FileTree) (p : Path) : Bool :=
  match t.lookup p with
  | .ok (.file _) => true
  | _ => false

def readText (t : FileTree) (p : Path) : Except FileError String := do
  match ← t.lookup p with
  | .file text => return text
  | .directory => throw .isDirectory

def withoutEndSlashes (text : List Char) : List Char :=
  match (text.reverse.dropWhile (· == '/')).reverse with
  -- The root keeps one of its slashes.
  | [] => text.take 1
  | text => text

def createDirectory (t : FileTree) (p : Path) : Except FileError FileTree := do
  let place ← t.follow (withoutEndSlashes (← pathText p))
  match t.entry? place with
  | some _ => throw .alreadyExists
  | none => return t.put place .directory

def writeText (t : FileTree) (p : Path) (text : String) : Except FileError FileTree := do
  let place ← t.locate p
  match t.entry? place with
  | some .directory => throw .isDirectory
  | _ => return t.put place (.file text)

def pathOf (place : Place) : Path :=
  ⟨"/" ++ "/".intercalate place⟩

def attempt (change : FileTree → Except FileError FileTree) :
    StateM FileTree (Except FileError Unit) := fun t =>
  match change t with
  | .ok t' => (.ok (), t')
  | .error e => (.error e, t)

instance : FileSystem (StateM FileTree) where
  isDirectory p := return (← get).isDirectory p
  isFile p := return (← get).isFile p
  readText p := return (← get).readText p
  createDirectory p := attempt (·.createDirectory p)
  writeText p text := attempt (·.writeText p text)
  workingDirectory := return pathOf (← get).workingPlace

end FileTree

end NativeBuild
