import NativeBuild.Proofs.Command.Json
import NativeBuild.Proofs.Command.Workers
import NativeBuild.Proofs.Project.Loading

namespace NativeBuild

/-- The binaries that a command selects: all of a project, or the first one of a name. -/
inductive Project.Selects (p : Project) : Option String → List Descriptor → Prop
  | all : p.Selects none p.binaries
  | named {name : String} {d : Descriptor} : p.binary? name = some d → p.Selects (some name) [d]

namespace Command

section Report

def textDocument (s : String) : Document := .scalar (.string s) none

def mapDocument (m : ModuleMap) : Document :=
  .table [(⟨"module_name", none⟩, textDocument m.name),
    (⟨"public_header_paths", none⟩, .list (m.headers.map textDocument) none)] none

def binaryDocument (b : BinaryMaps) : Document :=
  .table [(⟨"binary", none⟩, textDocument b.1),
    (⟨"module_maps", none⟩, .list (b.2.map mapDocument) none)] none

def reportDocument (report : List BinaryMaps) : Document :=
  .list (report.map binaryDocument) none

theorem document_pair {k k' : String} (h : compare k k' = .lt) (j j' : Json) :
    (Json.object [(k, j), (k', j')]).document =
      .table [(⟨k, none⟩, j.document), (⟨k', none⟩, j'.document)] none := by
  have ascending : [(k, j.document), (k', j'.document)].Pairwise
      fun a b => compare a.1 b.1 = .lt := by simp [h]
  simp only [Json.document, Json.fields, Message.table, Dict.entries_ofList ascending,
    List.map_cons, List.map_nil]

theorem document_strings (texts : List String) :
    (Json.list (texts.map .string)).document = .list (texts.map textDocument) none := by
  simp only [Json.document, Json.documents_eq, List.map_map]
  rfl

theorem document_mapJson (m : ModuleMap) : (mapJson m).document = mapDocument m := by
  rw [mapJson, document_pair (by decide +kernel), document_strings]
  rfl

theorem document_binaryJson (b : BinaryMaps) : (binaryJson b).document = binaryDocument b := by
  rw [binaryJson, document_pair (by decide +kernel)]
  simp only [Json.document, Json.documents_eq, List.map_map, Function.comp_def, document_mapJson]
  rfl

theorem nesting_mapJson (m : ModuleMap) : (mapJson m).nesting ≤ 2 := by
  have headers : Json.nestingOfItems (m.headers.map .string) ≤ 0 := by
    apply Json.nestingOfItems_le
    simp [Json.nesting]
  simp [mapJson, Json.nesting, Json.nestingOfEntries, Nat.le_zero.1 headers]

theorem nesting_binaryJson (b : BinaryMaps) : (binaryJson b).nesting ≤ 4 := by
  have maps : Json.nestingOfItems (b.2.map mapJson) ≤ 2 := by
    apply Json.nestingOfItems_le
    rw [List.forall_mem_map]
    exact fun m _ => nesting_mapJson m
  simp only [binaryJson, Json.nesting, Json.nestingOfEntries]
  omega

theorem parse?_moduleMapsText (report : List BinaryMaps) :
    Message.parse? (moduleMapsText true report) = some (reportDocument report) := by
  have binaries : Json.nestingOfItems (report.map binaryJson) ≤ 4 := by
    apply Json.nestingOfItems_le
    rw [List.forall_mem_map]
    exact fun b _ => nesting_binaryJson b
  have deep : (Json.list (report.map binaryJson)).nesting ≤ Message.maxDepth :=
    Nat.le_trans (Nat.succ_le_succ binaries) (by decide)
  rw [moduleMapsText, if_pos rfl, Json.parse?_pretty _ deep]
  simp only [Json.document, Json.documents_eq, List.map_map, Function.comp_def, document_binaryJson]
  rfl

def mapText (m : ModuleMap) : String :=
  "  module " ++ m.name ++ "\n" ++ String.join (m.headers.map fun h => "    " ++ h ++ "\n")

def binaryText (b : BinaryMaps) : String :=
  b.1 ++ ":\n" ++
    (if b.2 = [] then "  (no module maps)\n" else String.join (b.2.map mapText))

theorem toList_unlines (lines : List String) :
    (unlines lines).toList = lines.flatMap fun line => line.toList ++ ['\n'] := by
  simp [unlines, List.flatMap_map]

theorem unlines_mapLines (m : ModuleMap) : unlines (mapLines m) = mapText m := by
  rw [← String.toList_inj, toList_unlines]
  simp [mapLines, mapText, List.flatMap_map]

theorem unlines_binaryLines (b : BinaryMaps) : unlines (binaryLines b) = binaryText b := by
  rw [← String.toList_inj, toList_unlines]
  by_cases h : b.2 = []
  · simp [binaryLines, binaryText, h]
  · simp [binaryLines, binaryText, h, List.flatMap_assoc, List.flatMap_map, ← unlines_mapLines,
      toList_unlines]

theorem moduleMapsText_plain (report : List BinaryMaps) :
    moduleMapsText false report = String.join (report.map binaryText) := by
  rw [moduleMapsText, if_neg Bool.false_ne_true, ← String.toList_inj, toList_unlines]
  simp [List.flatMap_assoc, List.flatMap_map, ← unlines_binaryLines, toList_unlines]

end Report

section Selection

variable {p : Project} {r : Repository} {binary : Option String} {selected : List Descriptor}

theorem mem_binaries_of_selects (h : p.Selects binary selected) :
    ∀ d ∈ selected, d ∈ p.binaries := by
  cases h with
  | all => exact fun d hd => hd
  | named found =>
    rw [List.forall_mem_singleton]
    exact List.mem_of_find?_eq_some found

theorem outcome_runModuleMaps (h : p.Selects binary selected) (json : Bool) :
    outcome (runModuleMaps p r binary json) = tell json (readAll p r.engine selected) := by
  cases h with
  | all => rfl
  | named found =>
    rw [runModuleMaps, findBinary, found]
    rfl

end Selection

section Loaded

variable {t : FileTree} {input : Option Path} {loaded : Project × Repository}

theorem run_bind_fst {σ α β : Type} (x : StateM σ α) (f : α → StateM σ β) (s : σ) :
    ((x >>= f).run s).1 = ((f (x.run s).1).run (x.run s).2).1 := rfl

theorem exists_load_of_start {start : Path}
    (h : ((loadProject (some start) : StateM FileTree _).run t).1 = .ok loaded) :
    ∃ file t', ((Project.load file : StateM FileTree _).run t').1 = .ok loaded := by
  unfold loadProject at h
  simp only [pure_bind, run_bind_fst] at h
  split at h
  · exact ⟨start, _, h⟩
  · simp only [run_bind_fst] at h
    split at h
    · rename_i file _
      exact ⟨file, _, h⟩
    · cases h

theorem exists_load (h : ((loadProject input : StateM FileTree _).run t).1 = .ok loaded) :
    ∃ file t', ((Project.load file : StateM FileTree _).run t').1 = .ok loaded := by
  cases input with
  | some start => exact exists_load_of_start h
  | none =>
    unfold loadProject at h
    rw [run_bind_fst] at h
    apply exists_load_of_start
    unfold loadProject
    simp only [pure_bind]
    exact h

theorem run_loadProject_file {file : Path} (h : t.isFile file = true) :
    (loadProject (some file) : StateM FileTree _).run t =
      (Project.load file : StateM FileTree _).run t := by
  have looked : (FileSystem.isFile file : StateM FileTree Bool).run t = (true, t) :=
    congrArg (·, t) h
  unfold loadProject
  simp only [pure_bind]
  rw [StateT.run_bind, looked]
  rfl

theorem exists_wireAt {p : Project} {r : Repository}
    (h : ((loadProject input : StateM FileTree _).run t).1 = .ok (p, r)) :
    ∃ m root, Project.wireAt m root = .ok p := by
  obtain ⟨file, t', loads⟩ := exists_load h
  obtain ⟨text, m, -, -, ok⟩ := Project.load_eq_ok_iff.1 loads
  obtain ⟨place, -, -, -, wired⟩ := Project.ofManifest_eq_ok_iff.1 ok
  exact ⟨m, place, wired⟩

theorem run_onProject {p : Project} {r : Repository}
    (h : ((loadProject input : StateM FileTree _).run t).1 = .ok (p, r))
    (command : Project → Repository → Outcome) :
    ((onProject input fun p r => return command p r : StateM FileTree Outcome).run t).1 =
      command p r := by
  rw [onProject, StateT.run_bind]
  generalize (loadProject input : StateM FileTree _).run t = ran at h ⊢
  obtain ⟨result, t'⟩ := ran
  cases h
  rfl

end Loaded

section Results

variable {r : Repository} {selected : List Descriptor}

def mapsOf (r : Repository) (d : Descriptor) : Except Diagnostic BinaryMaps := do
  return (d.name, ← (d.moduleMaps r).mapError .ofBuildError)

theorem mapsOf_eq_ok {d : Descriptor} {b : BinaryMaps} :
    mapsOf r d = .ok b ↔ b.1 = d.name ∧ d.moduleMaps r = .ok b.2 := by
  obtain ⟨name, maps⟩ := b
  simp [mapsOf, bind_eq_ok, mapError_eq_ok, pure, Except.pure, eq_comm (a := name), and_comm]

theorem exists_mapsOf {d : Descriptor} (h : ∃ maps, d.moduleMaps r = .ok maps) :
    ∃ b, mapsOf r d = .ok b := by
  obtain ⟨maps, hm⟩ := h
  exact ⟨(d.name, maps), mapsOf_eq_ok.2 ⟨rfl, hm⟩⟩

theorem mapsOf_error {d : Descriptor} {e : BuildError} (h : d.moduleMaps r = .error e) :
    mapsOf r d = .error (.ofBuildError e) := by
  rw [mapsOf, h]
  rfl

theorem collect_moduleMaps (r : Repository) (selected : List Descriptor) :
    collect (selected.map fun d => (d.name, d.moduleMaps r)) = selected.mapM (mapsOf r) := by
  rw [collect, List.mapM_map]
  rfl

theorem tell_error {before after : List Descriptor} {d : Descriptor} {e : BuildError}
    (succeed : ∀ b ∈ before, ∃ maps, b.moduleMaps r = .ok maps) (fails : d.moduleMaps r = .error e)
    (json : Bool) : tell json ((before ++ d :: after).map fun d => (d.name, d.moduleMaps r)) =
      ⟨1, "", .text (Diagnostic.ofBuildError e).render⟩ := by
  have first : collect ((before ++ d :: after).map fun d => (d.name, d.moduleMaps r)) =
      .error (.ofBuildError e) := by
    rw [collect_moduleMaps, mapM_eq_error_iff]
    exact ⟨before, d, after, rfl, fun b hb => exists_mapsOf (succeed b hb), mapsOf_error fails⟩
  rw [tell, first]
  rfl

theorem tell_ok (succeed : ∀ d ∈ selected, ∃ maps, d.moduleMaps r = .ok maps) (json : Bool) :
    ∃ report, List.Forall₂ (fun d b => b.1 = d.name ∧ d.moduleMaps r = .ok b.2) selected report ∧
      tell json (selected.map fun d => (d.name, d.moduleMaps r)) =
        .done (moduleMapsText json report) "" := by
  obtain ⟨report, all⟩ := mapM_eq_ok_iff.2 fun d hd => exists_mapsOf (succeed d hd)
  refine ⟨report, (mapM_eq_ok_iff_forall₂.1 all).imp fun _ _ => mapsOf_eq_ok.1, ?_⟩
  rw [tell, collect_moduleMaps, all]
  rfl

end Results

/-- The command tells the module maps of all selected binaries or none: the first failure among them
is told instead, with nothing else. In whatever order workers read the maps, the outcome is the
same. -/
theorem moduleMaps_all_or_nothing {t : FileTree} {input : Option Path} {p : Project}
    {r : Repository} (loaded : ((loadProject input : StateM FileTree _).run t).1 = .ok (p, r))
    {binary : Option String} {selected : List Descriptor} (selects : p.Selects binary selected)
    (json : Bool) :
    let outcome := ((run (.moduleMaps input binary json) : StateM FileTree Outcome).run t).1
    (∀ events s, (Workers.start p selected).run r.engine events = some s →
      (∀ results, s.results? = some results → tell json results = outcome) ∧
        ∃ more s' results, s.run r.engine more = some s' ∧ s'.results? = some results) ∧
    (∀ d ∈ selected, ∀ e, d.moduleMaps r = .error e → ∃ before first after e',
      selected = before ++ first :: after ∧ (∀ b ∈ before, ∃ maps, b.moduleMaps r = .ok maps) ∧
        first.moduleMaps r = .error e' ∧
          outcome = ⟨1, "", .text (Diagnostic.ofBuildError e').render⟩) ∧
    ((∀ d ∈ selected, ∃ maps, d.moduleMaps r = .ok maps) → ∃ report,
      List.Forall₂ (fun d b => b.1 = d.name ∧ d.moduleMaps r = .ok b.2) selected report ∧
        outcome.status = 0 ∧ outcome.report = .text "" ∧
          (json = true → Message.parse? outcome.output = some (reportDocument report)) ∧
          (json = false → outcome.output = String.join (report.map binaryText))) := by
  intro outcome
  obtain ⟨m, root, wired⟩ := exists_wireAt loaded
  have within := mem_binaries_of_selects selects
  have told : outcome = tell json (readAll p r.engine selected) := by
    rw [← outcome_runModuleMaps selects json]
    exact run_onProject loaded fun p r => Command.outcome (runModuleMaps p r binary json)
  -- The maps of a binary depend on nothing that was read before.
  have pure_told : outcome = tell json (selected.map fun d => (d.name, d.moduleMaps r)) := by
    rw [told, readAll_eq wired within]
  refine ⟨fun events s hs => ?_, fun d hd e he => ?_, fun succeed => ?_⟩
  · obtain ⟨same, more, s', run, all⟩ := Workers.results?_run wired within hs
    refine ⟨fun results hr => ?_, more, s', _, run, all⟩
    rw [told, same results hr]
  · cases hm : selected.mapM (fun d => d.moduleMaps r) with
    | ok all =>
      obtain ⟨maps, ok⟩ := mapM_eq_ok_iff.1 ⟨all, hm⟩ d hd
      cases he.symm.trans ok
    | error e' =>
      obtain ⟨before, first, after, rfl, succeed, fails⟩ := mapM_eq_error_iff.1 hm
      refine ⟨before, first, after, e', rfl, succeed, fails, ?_⟩
      rw [pure_told, tell_error succeed fails]
  · obtain ⟨report, same, all⟩ := tell_ok succeed json
    rw [pure_told, all]
    refine ⟨report, same, rfl, rfl, ?_, ?_⟩
    · rintro rfl
      exact parse?_moduleMapsText report
    · rintro rfl
      exact moduleMapsText_plain report

def lopsidedText : String :=
  unlines ["[project]", "name = \"app\"", "[dependencies]", "implementation = [\":core\"]",
    "[[component]]", "kind = \"project\"", "path = \":core\"", "[[component.variant]]",
    "name = \"headers\"", "files = [\"core.h\"]", "[component.variant.attributes]",
    "usage = \"swift-interface\"", "debuggable = true", "optimized = false",
    "requires-module-map = true"]

def lopsidedFile : Path := ⟨"/w/native.toml"⟩

def lopsided : FileTree :=
  (FileTree.rooted ["w"]).put ["w", "native.toml"] (.file lopsidedText)

def lopsidedCore : Repository where
  components := [⟨.project ":core", [⟨"headers",
    (Channel.requestedAttributes .compile .debug).merge ModuleMap.view, [⟨"/w/core.h"⟩], []⟩]⟩]

def lopsidedCompile (b : BinaryIdentity) : Channel :=
  .ofBinary .compile b (.ofList "implementation" [.project ":core"])

def lopsidedFailure : BuildError :=
  .resolution (.noMatchingVariant "project :core"
    "\x7bdebuggable=true, optimized=true, usage=swift-interface\x7d" "swiftCompileRelease")

def lopsidedMaps : List ModuleMap := [⟨"core", ["/w/core.h"]⟩]

theorem parse_lopsided : (Manifest.parse lopsidedText).toOption.map (fun m =>
    (m.repository ⟨"/w"⟩, (Project.wireAt m ⟨"/w"⟩).map fun p =>
      p.binaries.map fun d => (d.name, d.channels.compile))) =
    some (.ok lopsidedCore,
      .ok (BinaryIdentity.conventional.map fun b => (b.name, lopsidedCompile b))) := by
  -- Line by line, since long texts are slow to take apart.
  rw [Manifest.parse, Toml.parse?, lopsidedText, toList_unlines]
  decide +kernel

theorem moduleMaps_lopsided : BinaryIdentity.conventional.map (fun b => (b.name,
    ModuleMap.ofResolution (lopsidedCore.resolve (ModuleMap.request (lopsidedCompile b))))) =
      [("debug", .ok lopsidedMaps), ("release", .error lopsidedFailure),
        ("test", .ok lopsidedMaps)] := by
  cbv

theorem exists_of_parsed {x : Except ManifestError Manifest} {root : Path} {r : Repository}
    {α : Type} {f : Project → α} {a : α} (h : x.toOption.map (fun m =>
      (m.repository root, (Project.wireAt m root).map f)) = some (.ok r, .ok a)) :
    ∃ m p, x = .ok m ∧ m.repository root = .ok r ∧ Project.wireAt m root = .ok p ∧ f p = a := by
  cases x with
  | error e => cases h
  | ok m =>
    obtain ⟨repository, wired⟩ := Prod.mk.inj (Option.some.inj h)
    cases hp : Project.wireAt m root with
    | error e => simp [hp, Except.map] at wired
    | ok p =>
      simp only [hp, Except.map, Except.ok.injEq] at wired
      exact ⟨m, p, rfl, repository, hp, wired⟩

theorem load_lopsided : ∃ p,
    ((loadProject (some lopsidedFile) : StateM FileTree _).run lopsided).1 = .ok (p, lopsidedCore) ∧
      p.binaries.map (fun d => (d.name, d.moduleMaps lopsidedCore)) =
        [("debug", .ok lopsidedMaps), ("release", .error lopsidedFailure),
          ("test", .ok lopsidedMaps)] := by
  have isFile : lopsided.isFile lopsidedFile = true := by decide +kernel
  have read : lopsided.readText lopsidedFile = .ok lopsidedText := by decide +kernel
  have place : Project.absoluteRoot (FileTree.pathOf lopsided.workingPlace)
      (Project.rootOf lopsidedFile) = .ok ⟨"/w"⟩ := by decide +kernel
  have valid : lopsidedCore.validate = .ok () := by cbv
  obtain ⟨m, p, parsed, repository, wired, compile⟩ := exists_of_parsed parse_lopsided
  have loads := Project.load_eq_ok_iff.2 ⟨_, m, read, parsed,
    Project.ofManifest_eq_ok_iff.2 ⟨_, place, repository, valid, wired⟩⟩
  refine ⟨p, by rwa [run_loadProject_file isFile], ?_⟩
  have maps := congrArg (List.map fun e : String × Channel =>
    (e.1, ModuleMap.ofResolution (lopsidedCore.resolve (ModuleMap.request e.2)))) compile
  simp only [List.map_map, Function.comp_def] at maps
  rw [moduleMaps_lopsided] at maps
  exact maps

theorem binaryText_lopsided : String.join ([("debug", lopsidedMaps)].map binaryText) =
    "debug:\n  module core\n    /w/core.h\n" := by
  decide +kernel

theorem moduleMaps_all_or_nothing_lopsided : ∃ p,
    ((loadProject (some lopsidedFile) : StateM FileTree _).run lopsided).1 = .ok (p, lopsidedCore) ∧
      p.Selects none p.binaries ∧ (∃ d, p.Selects (some "debug") [d]) ∧
      ((run (.moduleMaps (some lopsidedFile) none false) : StateM FileTree Outcome).run lopsided).1 =
        ⟨1, "", .text (Diagnostic.ofBuildError lopsidedFailure).render⟩ ∧
      ((run (.moduleMaps (some lopsidedFile) (some "debug") false) :
        StateM FileTree Outcome).run lopsided).1.output =
          "debug:\n  module core\n    /w/core.h\n" ∧
      Message.parse? ((run (.moduleMaps (some lopsidedFile) (some "debug") true) :
        StateM FileTree Outcome).run lopsided).1.output =
          some (reportDocument [("debug", lopsidedMaps)]) := by
  obtain ⟨p, loaded, maps⟩ := load_lopsided
  obtain ⟨debug, others, binaries, isDebug, maps⟩ := List.map_eq_cons_iff.1 maps
  obtain ⟨release, tests, rfl, isRelease, -⟩ := List.map_eq_cons_iff.1 maps
  obtain ⟨name, built⟩ := Prod.mk.inj isDebug
  obtain ⟨-, broken⟩ := Prod.mk.inj isRelease
  have select : p.Selects (some "debug") [debug] := by
    refine .named ?_
    rw [Project.binary?, binaries, List.find?_cons_of_pos]
    simp [name]
  have report_debug {report : List BinaryMaps} (h : List.Forall₂
      (fun d b => b.1 = d.name ∧ d.moduleMaps lopsidedCore = .ok b.2) [debug] report) :
      report = [("debug", lopsidedMaps)] := by
    obtain ⟨b, rest, ⟨same, made⟩, last, rfl⟩ := List.forall₂_cons_left_iff.1 h
    obtain rfl := List.forall₂_nil_left_iff.1 last
    have maps : b.2 = lopsidedMaps := Except.ok.inj (made.symm.trans built)
    rw [← name, ← same, ← maps]
  refine ⟨p, loaded, .all, ⟨debug, select⟩, ?_, ?_, ?_⟩
  · have listed : release ∈ p.binaries := by simp [binaries]
    obtain ⟨before, first, after, e, split, succeed, fails, outcome⟩ :=
      (moduleMaps_all_or_nothing loaded .all false).2.1 release listed _ broken
    rw [binaries] at split
    rw [outcome]
    -- The failing binary can only be the second one.
    match before with
    | [] =>
      obtain ⟨rfl, -⟩ := List.cons.inj split
      cases fails.symm.trans built
    | [_] =>
      obtain ⟨-, split⟩ := List.cons.inj split
      obtain ⟨rfl, -⟩ := List.cons.inj split
      rw [Except.error.inj (fails.symm.trans broken)]
    | _ :: b :: _ =>
      obtain ⟨-, split⟩ := List.cons.inj split
      obtain ⟨rfl, -⟩ := List.cons.inj split
      obtain ⟨maps, ok⟩ := succeed release (by simp)
      cases ok.symm.trans broken
  · obtain ⟨report, h, -, -, -, output⟩ := (moduleMaps_all_or_nothing loaded select false).2.2 (by
      simp [built])
    rw [output rfl, report_debug h, binaryText_lopsided]
  · obtain ⟨report, h, -, -, output, -⟩ := (moduleMaps_all_or_nothing loaded select true).2.2 (by
      simp [built])
    rw [output rfl, report_debug h]

end Command

end NativeBuild
