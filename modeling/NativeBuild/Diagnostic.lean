import NativeBuild.Document
import NativeBuild.Failure

namespace NativeBuild

inductive Severity
  | error
  | warning
  deriving DecidableEq, Inhabited

def Severity.label : Severity → String
  | .error => "error"
  | .warning => "warning"

structure Location where
  file : String
  text : String
  span : Option Span
  deriving DecidableEq, Inhabited

structure Diagnostic where
  severity : Severity
  message : String
  notes : List String
  help : Option String
  location : Option Location
  deriving DecidableEq, Inhabited

namespace Diagnostic

def error (message : String) : Diagnostic := ⟨.error, message, [], none, none⟩

def withNote (d : Diagnostic) (note : String) : Diagnostic :=
  { d with notes := d.notes ++ [note] }

def withHelp (d : Diagnostic) (help : String) : Diagnostic :=
  { d with help := some help }

def hint : BuildError → Option String
  | .unclassifiableProducer .. =>
    some "module maps can only be named after module, project or library binary components"
  | .resolution (.noMatchingVariant ..) =>
    some "publish a variant with these attributes or adjust the binary's flags"
  | .resolution (.ambiguousVariants ..) =>
    some "make the variants' attributes distinct so exactly one matches"
  | .resolution (.dependencyCycle ..) =>
    some "break the cycle between the components' variant dependencies"
  | .invalidModuleName .. => some "set `module` in [project] to a Swift identifier"
  | .channelConflict .. => some "give each binary variant a distinct name"
  | _ => none

def ofBuildError (e : BuildError) : Diagnostic where
  severity := .error
  message := e.message
  notes := match e with
    | .unclassifiableProducer _ kind => ["producer kind: " ++ kind]
    | _ => []
  help := hint e
  location := none

def lines (d : Diagnostic) : List String :=
  (d.severity.label ++ ": " ++ d.message) :: d.notes.map ("  note: " ++ ·)
    ++ d.help.toList.map ("  help: " ++ ·)

def render (d : Diagnostic) : String :=
  String.join (d.lines.map (· ++ "\n"))

def placeText (l : Location) : String :=
  match l.span with
  | some s => s!"  --> {l.file}, bytes {s.start} to {s.stop}\n"
  | none => s!"  --> {l.file}\n"

def draw (d : Diagnostic) : String :=
  d.render ++ (d.location.map placeText).getD ""

end Diagnostic

end NativeBuild
