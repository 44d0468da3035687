import NativeBuild.Diagnostic
import NativeBuild.Files
import NativeBuild.Manifest.Reader
import NativeBuild.Project

universe u

namespace NativeBuild

def ManifestError.message : ManifestError → String
  | .malformed => "<syntax>"
  | .shape e => e.cause.message

def ManifestError.span : ManifestError → Option Span
  | .malformed => none
  | .shape e => e.span

variable {m : Type → Type u} [Monad m] [FileSystem m]

namespace Manifest

def candidates (start : Path) : List Path :=
  start.ancestors.map (·.child fileName)

def find? (start : Path) : m (Option Path) :=
  FileSystem.firstFile? (candidates start)

def cannotRead (file : Path) (e : FileError) : Diagnostic :=
  (Diagnostic.error s!"cannot read '{file.text}': {e.message}").withHelp
    "check that the file exists and is readable"

def invalid (file : Path) (text : String) (e : ManifestError) : Diagnostic :=
  { Diagnostic.error s!"invalid {fileName}: {e.message}" with
    location := some ⟨file.text, text, e.span⟩ }

def load (file : Path) : m (Except Diagnostic Manifest) := do
  match ← FileSystem.readText file with
  | .error e => return .error (cannotRead file e)
  | .ok text => return (parse text).mapError (invalid file text)

end Manifest

namespace Project

def rootOf (file : Path) : Path :=
  file.parent?.getD ⟨"."⟩

def load (file : Path) : m (Except Diagnostic (Project × Repository)) := do
  match ← Manifest.load file with
  | .error d => return .error d
  | .ok manifest =>
    let cwd ← FileSystem.workingDirectory
    return (ofManifest cwd manifest (rootOf file)).mapError .ofBuildError

end Project

end NativeBuild
