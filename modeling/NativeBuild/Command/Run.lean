import NativeBuild.Command.Arguments
import NativeBuild.Command.Json
import NativeBuild.ModuleMap.Store
import NativeBuild.Project.Evaluation
import NativeBuild.Project.Load

universe u

namespace NativeBuild

inductive Report
  | text (text : String)
  | drawn (diagnostic : Diagnostic)
  | usage
  deriving DecidableEq, Inhabited

structure Outcome where
  status : Nat
  output : String
  report : Report
  deriving DecidableEq, Inhabited

namespace Outcome

def done (output report : String) : Outcome := ⟨0, output, .text report⟩

def failed (output : String) (d : Diagnostic) : Outcome :=
  ⟨1, output, if d.location.isSome then .drawn d else .text d.render⟩

def misused : Outcome := ⟨2, "", .usage⟩

end Outcome

namespace Command

def programVersion : String := "nativebin 0.1.0\n"

def unlines (lines : List String) : String :=
  String.join (lines.map (· ++ "\n"))

def helpText : String :=
  unlines
    ["Resolution channels and Swift module maps for native binaries", "",
     "Usage: nativebin <COMMAND>", "", "Commands:",
     "  channels     Show each binary's compile, link and runtime channels",
     "  artifacts    Resolve one channel of a binary and list its files",
     "  module-maps  Compute the module maps of one or all binaries",
     "  generate     Write module.modulemap files for a binary"]

def padded (width : Nat) (text : String) : String :=
  text ++ String.ofList (List.replicate (width - text.length) ' ')

def findBinary (p : Project) (name : String) : Except Diagnostic Descriptor :=
  match p.binary? name with
  | some d => .ok d
  | none => .error ((Diagnostic.error s!"no binary named '{name}'").withNote
      ("declared binaries: " ++ ", ".intercalate (p.binaries.map (·.name))))

def channelLines (d : Descriptor) : List String :=
  let b := d.identity
  ["", s!"{b.name} (debuggable={b.debuggable}, optimized={b.optimized}, testable={b.testable})"]
    ++ d.channels.toList.map fun (purpose, c) =>
      "  " ++ padded 8 purpose.label ++ " " ++ padded 28 c.name ++ " " ++ c.attributes.text

def channelsText (p : Project) : String :=
  let declared := p.implementation.dependencies
  unlines (s!"Project {p.name} (module {p.moduleName.text}), {declared.length} declared dependencies"
    :: declared.map ("  " ++ ·.text) ++ p.binaries.flatMap channelLines)

def artifactsText (artifacts : List Artifact) : String :=
  unlines (artifacts.map fun a => a.file.text ++ "\t" ++ a.producer.displayName)

abbrev BinaryMaps := String × List ModuleMap

def mapLines (m : ModuleMap) : List String :=
  ("  module " ++ m.name) :: m.headers.map ("    " ++ ·)

def binaryLines (b : BinaryMaps) : List String :=
  (b.1 ++ ":") ::
    (if b.2.isEmpty then ["  (no module maps)"] else b.2.flatMap mapLines)

def mapJson (m : ModuleMap) : Json :=
  .object [("module_name", .string m.name), ("public_header_paths", .list (m.headers.map .string))]

def binaryJson (b : BinaryMaps) : Json :=
  .object [("binary", .string b.1), ("module_maps", .list (b.2.map mapJson))]

def moduleMapsText (json : Bool) (report : List BinaryMaps) : String :=
  if json then (Json.list (report.map binaryJson)).pretty 0 ++ "\n"
  else unlines (report.flatMap binaryLines)

def collect (results : List (String × Except BuildError (List ModuleMap))) :
    Except Diagnostic (List BinaryMaps) :=
  results.mapM fun r => do return (r.1, ← r.2.mapError .ofBuildError)

def readAll (p : Project) (engine : Engine) (selected : List Descriptor) :
    List (String × Except BuildError (List ModuleMap)) :=
  ((selected.mapM fun d => return (d.name, ← d.readModuleMaps engine) : Reading _).run
    (.start p)).1

def runChannels (p : Project) : Except Diagnostic Outcome :=
  .ok (.done (channelsText p) "")

def runArtifacts (p : Project) (r : Repository) (binary : String) (purpose : Purpose) :
    Except Diagnostic Outcome := do
  let d ← findBinary p binary
  let answer := ((d.readArtifacts r.engine purpose).run (.start p)).1
  let artifacts ← answer.mapError fun e => .ofBuildError (.resolution e)
  return .done (artifactsText artifacts)
    s!"{(d.channels.get purpose).name}: {artifacts.length} artifacts\n"

def runModuleMaps (p : Project) (r : Repository) (binary : Option String) (json : Bool) :
    Except Diagnostic Outcome := do
  let selected ← match binary with
    | some name => do pure [← findBinary p name]
    | none => pure p.binaries
  return .done (moduleMapsText json (← collect (readAll p r.engine selected))) ""

variable {m : Type → Type u} [Monad m] [FileSystem m]

def writeMaps (out : Path) : List ModuleMap → m (List Path × Option (ModuleMap × WriteError))
  | [] => return ([], none)
  | map :: rest => do
    match ← map.write out with
    | .error e => return ([], some (map, e))
    | .ok path => do
      let (paths, failure) ← writeMaps out rest
      return (path :: paths, failure)

def cannotWrite (out : Path) (map : ModuleMap) (e : WriteError) : Diagnostic :=
  .error s!"cannot write module map for '{map.name}' into '{out.text}': {e.message}"

def runGenerate (p : Project) (r : Repository) (binary : String) (output : Option Path) :
    m Outcome := do
  match findBinary p binary with
  | .error d => return .failed "" d
  | .ok d =>
    match ((d.readModuleMaps r.engine).run (.start p)).1 with
    | .error e => return .failed "" (.ofBuildError e)
    | .ok maps =>
      let out := output.getD d.moduleMapsDirectory
      let (paths, failure) ← writeMaps out maps
      let written := unlines (paths.map (·.text))
      match failure with
      | some (map, e) => return .failed written (cannotWrite out map e)
      | none =>
        return .done written
          s!"Wrote {maps.length} module map(s) for {d.name} into {out.text}\n"

def notFound (start : Path) : Diagnostic :=
  (Diagnostic.error s!"no {Manifest.fileName} found in '{start.text}' or its ancestors").withHelp
    "run from a project directory or pass its path"

def loadProject (input : Option Path) : m (Except Diagnostic (Project × Repository)) := do
  let start ← match input with
    | some p => pure p
    | none => FileSystem.workingDirectory
  if ← FileSystem.isFile start then Project.load start
  else
    match ← Manifest.find? start with
    | some file => Project.load file
    | none => return .error (notFound start)

def onProject (input : Option Path) (command : Project → Repository → m Outcome) : m Outcome := do
  match ← loadProject input with
  | .error d => return .failed "" d
  | .ok (p, r) => command p r

def outcome : Except Diagnostic Outcome → Outcome
  | .error d => .failed "" d
  | .ok o => o

def run : Command → m Outcome
  | .channels input => onProject input fun p _ => return outcome (runChannels p)
  | .artifacts input binary purpose =>
    match Purpose.ofLabel? purpose with
    -- Nothing is loaded for a purpose that does not exist.
    | none => return .failed "" (.error (Purpose.unknownLabel purpose))
    | some purpose => onProject input fun p r => return outcome (runArtifacts p r binary purpose)
  | .moduleMaps input binary json =>
    onProject input fun p r => return outcome (runModuleMaps p r binary json)
  | .generate input binary output =>
    onProject input fun p r => runGenerate p r binary output

def runArguments (arguments : List String) : m Outcome :=
  match Arguments.parse? arguments with
  | none => return .misused
  | some .version => return .done programVersion ""
  | some .help => return .done helpText ""
  | some (.run command) => command.run

end Command

end NativeBuild
