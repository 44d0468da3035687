import NativeBuild.Files
import NativeBuild.ModuleMap

universe u

namespace NativeBuild

inductive WriteError
  | notPlainName (name : String)
  | file (error : FileError)
  deriving DecidableEq, Inhabited

def WriteError.message : WriteError → String
  | .notPlainName name => s!"module name '{name}' is not a plain directory name"
  | .file error => error.message

def WriteError.isInvalidInput : WriteError → Bool
  | .notPlainName _ | .file .nulCharacter => true
  | .file _ => false

namespace ModuleMap

variable {m : Type → Type u} [Monad m] [FileSystem m]

def fileName : String := "module.modulemap"

def directory (map : ModuleMap) (out : Path) : Path :=
  out.child map.name

def file (map : ModuleMap) (out : Path) : Path :=
  (map.directory out).child fileName

def renderNow (map : ModuleMap) : m String := do
  let directories ← map.headers.mapM fun h => FileSystem.isDirectory ⟨h⟩
  return frame map.name (List.zipWith headerLine directories map.headers)

/-- Writes a map into an output directory, and gives the path of its file. A file that has the same
text already is not written again, so its modification time stays. -/
def write (map : ModuleMap) (out : Path) : m (Except WriteError Path) := do
  if !Path.isPlainName map.name then return .error (.notPlainName map.name)
  match ← FileSystem.ensureDirectories (map.directory out) with
  | .error e => return .error (.file e)
  | .ok () =>
    let text ← map.renderNow
    let path := map.file out
    match ← FileSystem.readText path with
    | .ok old => if old = text then return .ok path else put path text
    | .error _ => put path text
where
  put (path : Path) (text : String) : m (Except WriteError Path) := do
    match ← FileSystem.writeText path text with
    | .ok () => return .ok path
    | .error e => return .error (.file e)

end ModuleMap

end NativeBuild
