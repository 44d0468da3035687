import NativeBuild.Path

universe u

namespace NativeBuild

inductive FileError
  | notFound
  | alreadyExists
  | notDirectory
  | isDirectory
  | nameTooLong
  | nulCharacter
  | other (text : String)
  deriving DecidableEq, Inhabited

def FileError.message : FileError → String
  | .notFound => "No such file or directory (os error 2)"
  | .alreadyExists => "File exists (os error 17)"
  | .notDirectory => "Not a directory (os error 20)"
  | .isDirectory => "Is a directory (os error 21)"
  | .nameTooLong => "File name too long (os error 36)"
  | .nulCharacter => "file name contained an unexpected NUL byte"
  | .other text => text

class FileSystem (m : Type → Type u) where
  isDirectory : Path → m Bool
  isFile : Path → m Bool
  readText : Path → m (Except FileError String)
  createDirectory : Path → m (Except FileError Unit)
  writeText : Path → String → m (Except FileError Unit)
  workingDirectory : m Path

namespace FileSystem

variable {m : Type → Type u} [Monad m] [FileSystem m]

def ensureDirectory (p : Path) : m (Except FileError Unit) := do
  match ← createDirectory p with
  | .ok () => return .ok ()
  | .error e => return if ← isDirectory p then .ok () else .error e

/-- Creates the first of a list of directories in which each lies in the next one, and those of the
others that it needs. -/
def ensureChain : List Path → m (Except FileError Unit)
  | [] => return .error (.other "failed to create whole tree")
  | p :: above => do
    if p.text = "" then return .ok ()
    match ← createDirectory p with
    | .ok () => return .ok ()
    | .error .notFound =>
      match ← ensureChain above with
      | .ok () => ensureDirectory p
      | .error e => return .error e
    | .error e => return if ← isDirectory p then .ok () else .error e

def ensureDirectories (p : Path) : m (Except FileError Unit) :=
  ensureChain p.ancestors

def firstFile? : List Path → m (Option Path)
  | [] => return none
  | p :: rest => do if ← isFile p then return some p else firstFile? rest

end FileSystem

end NativeBuild
