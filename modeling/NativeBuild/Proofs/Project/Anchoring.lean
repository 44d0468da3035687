import NativeBuild.Project.Reads
import NativeBuild.Proofs.Dict
import NativeBuild.Proofs.ModuleMap.Aggregation
import NativeBuild.Proofs.Path.Absolute
import NativeBuild.Proofs.Project.Laziness
import NativeBuild.Proofs.Project.Wiring
import NativeBuild.Proofs.Repository.Resolution

namespace NativeBuild

def Repository.Anchored (r : Repository) : Prop :=
  ∀ c ∈ r.components, ∀ v ∈ c.variants, ∀ f ∈ v.files, f.isAbsolute = true

def Answer.Anchored : Answer → Prop
  | .artifacts (.ok found) => ∀ a ∈ found, a.file.isAbsolute = true
  | .moduleMaps (.ok maps) => ∀ m ∈ maps, ∀ h ∈ m.headers, (⟨h⟩ : Path).isAbsolute = true
  | .moduleFile file => file.isAbsolute = true
  | _ => True

theorem Manifest.repository_anchored {m : Manifest} {root : Path} {r : Repository}
    (absolute : root.isAbsolute = true) (h : m.repository root = .ok r) : r.Anchored := by
  intro c hc v hv f hf
  obtain ⟨components, hm, h⟩ := bind_eq_ok.1 h
  cases h
  obtain ⟨section_, -, h⟩ := exists_of_mem_mapM hm hc
  obtain ⟨variants, hm, h⟩ := bind_eq_ok.1 h
  cases h
  obtain ⟨given, -, h⟩ := exists_of_mem_mapM hm hv
  obtain ⟨attributes, -, h⟩ := bind_eq_ok.1 h
  obtain ⟨dependencies, -, h⟩ := bind_eq_ok.1 h
  cases h
  obtain ⟨f, -, rfl⟩ := List.mem_map.1 hf
  simp [Path.isAbsolute_join, absolute]

namespace Repository.Anchored

variable {r : Repository} (h : r.Anchored)
include h

theorem resolve {q : Request} {artifacts : List Artifact} (hr : r.resolve q = .ok artifacts) :
    ∀ a ∈ artifacts, a.file.isAbsolute = true := by
  intro a ha
  obtain ⟨c, hc, v, hv, ha⟩ := mem_of_resolve hr ha
  obtain ⟨f, hf, rfl⟩ := List.mem_map.1 ha
  exact h c hc v hv f hf

theorem moduleMaps {q : Request} {maps : List ModuleMap}
    (hm : ModuleMap.ofResolution (r.resolve q) = .ok maps) :
    ∀ m ∈ maps, ∀ header ∈ m.headers, (⟨header⟩ : Path).isAbsolute = true := by
  intro m hmem header hh
  obtain ⟨artifacts, hr, hm⟩ := bind_eq_ok.1 hm
  obtain ⟨a, ha, rfl⟩ := ModuleMap.file_of_header hm hmem hh
  exact h.resolve (mapError_eq_ok.1 hr) a ha

theorem fetch (d : Descriptor) (calls : Nat) (k : Slot) : (d.fetch r.engine calls k).Anchored := by
  cases k with
  | artifacts purpose =>
    change Answer.Anchored (.artifacts (r.resolve (d.channels.get purpose).request))
    cases hr : r.resolve (d.channels.get purpose).request with
    | error e => trivial
    | ok artifacts => exact h.resolve hr
  | moduleMaps =>
    change Answer.Anchored (.moduleMaps (ModuleMap.ofResolution (r.resolve _)))
    cases hm : ModuleMap.ofResolution (r.resolve (ModuleMap.request d.channels.compile)) with
    | error e => trivial
    | ok maps => exact h.moduleMaps hm

end Repository.Anchored

structure Descriptor.Anchored (d : Descriptor) : Prop where
  objects : d.objectsDirectory.isAbsolute = true
  moduleMaps : d.moduleMapsDirectory.isAbsolute = true
  moduleFile : ∀ name, (d.moduleFile name).isAbsolute = true

theorem Descriptor.of_anchored {build : Path} (h : build.isAbsolute = true)
    (implementation : DependencySet) (position : Nat) (identity : BinaryIdentity) :
    (Descriptor.of build implementation position identity).Anchored where
  objects := Path.isAbsolute_child (Path.isAbsolute_child h _) _
  moduleMaps := Path.isAbsolute_child (Path.isAbsolute_child h _) _
  moduleFile _ := Path.isAbsolute_child (Path.isAbsolute_child (Path.isAbsolute_child h _) _) _

namespace Project

variable {p : Project} {r : Repository} {cwd root : Path} {m : Manifest}

theorem ofManifest_eq_ok_iff : ofManifest cwd m root = .ok (p, r) ↔
    ∃ place, absoluteRoot cwd root = .ok place ∧ m.repository place = .ok r ∧
      r.validate = .ok () ∧ wireAt m place = .ok p := by
  constructor
  · intro h
    obtain ⟨place, hp, h⟩ := bind_eq_ok.1 h
    obtain ⟨repository, hr, h⟩ := bind_eq_ok.1 h
    obtain ⟨⟨⟩, hv, h⟩ := bind_eq_ok.1 h
    obtain ⟨wired, hw, h⟩ := bind_eq_ok.1 h
    cases h
    exact ⟨place, hp, hr, mapError_eq_ok.1 hv, hw⟩
  · rintro ⟨place, hp, hr, hv, hw⟩
    refine bind_eq_ok.2 ⟨place, hp, bind_eq_ok.2 ⟨r, hr, ?_⟩⟩
    exact bind_eq_ok.2 ⟨(), mapError_eq_ok.2 hv, bind_eq_ok.2 ⟨p, hw, rfl⟩⟩

theorem absoluteRoot_eq_ok_iff {place : Path} :
    absoluteRoot cwd root = .ok place ↔ Path.absolute? cwd root = some place := by
  unfold absoluteRoot
  cases Path.absolute? cwd root with
  | none => simp
  | some q => simp

theorem wire_again (hw : cwd.IsNormal) (h : ofManifest cwd m root = .ok (p, r)) :
    wire cwd m p.root = .ok p := by
  obtain ⟨place, hp, -, -, wired⟩ := ofManifest_eq_ok_iff.1 h
  have again := hw.absolute?_absolute? (absoluteRoot_eq_ok_iff.1 hp)
  rw [(wireAt_eq_ok wired).1]
  exact bind_eq_ok.2 ⟨place, absoluteRoot_eq_ok_iff.2 again, wired⟩

theorem binaries_anchored {place : Path} (absolute : place.isAbsolute = true)
    (h : wireAt m place = .ok p) : ∀ d ∈ p.binaries, d.Anchored := by
  intro d hd
  rw [(wireAt_eq_ok h).2.2] at hd
  obtain ⟨i, hi⟩ := Manifest.mem_descriptors hd
  rw [hi]
  apply Descriptor.of_anchored
  simp [Path.isAbsolute_join, absolute]

theorem sources_anchored {place : Path} (absolute : place.isAbsolute = true)
    (h : wireAt m place = .ok p) : ∀ s ∈ p.sources.values, s.isAbsolute = true := by
  intro s hs
  rw [(wireAt_eq_ok h).2.1] at hs
  obtain ⟨e, he, rfl⟩ := List.mem_map.1 hs
  obtain ⟨q, hq, rfl⟩ := List.mem_map.1 (Dict.mem_ofList he)
  obtain ⟨given, -, rfl⟩ := List.mem_map.1 hq
  simp [Path.isAbsolute_join, absolute]

theorem read_anchored (binaries : ∀ d ∈ p.binaries, d.Anchored) (engine : Engine) {q : Read p}
    (hq : q.slot? = none) (s : Evaluation) : ((p.read engine q).run s).1.Anchored := by
  cases q with
  | answer i k => cases hq
  | evaluated i k => trivial
  | moduleName => trivial
  | moduleFile i =>
    obtain ⟨name, cell, run⟩ := p.run_readModuleName s
    simp only [read, Descriptor.readModuleFile, StateT.run_bind, run]
    exact (binaries _ (List.get_mem p.binaries i)).moduleFile name

theorem exists_read {engine : Engine} {reads : List (Read p)} {s : Evaluation} {e : Read p × Answer}
    (h : e ∈ ((p.readInTurn engine reads).run s).1) :
    ∃ s', e.2 = ((p.read engine e.1).run s').1 := by
  induction reads generalizing s with
  | nil => cases h
  | cons q reads ih =>
    rw [run_readInTurn_cons] at h
    rcases List.mem_cons.1 h with rfl | h
    · exact ⟨s, rfl⟩
    · exact ih h

/-- Every path of a project is absolute: those that wiring gives it, those of the artifacts behind
its channels, and those in the answers that it keeps. -/
structure Anchored (p : Project) (r : Repository) : Prop where
  root : p.root.isAbsolute = true
  sources : ∀ s ∈ p.sources.values, s.isAbsolute = true
  outputs : ∀ d ∈ p.binaries, d.Anchored
  artifacts : ∀ d ∈ p.binaries, ∀ purpose view found,
    r.resolve ⟨d.channels.get purpose, view⟩ = .ok found → ∀ a ∈ found, a.file.isAbsolute = true
  headers : ∀ d ∈ p.binaries, ∀ maps,
    ModuleMap.ofResolution (r.resolve (ModuleMap.request d.channels.compile)) = .ok maps →
      ∀ m ∈ maps, ∀ h ∈ m.headers, (⟨h⟩ : Path).isAbsolute = true
  reads : ∀ reads, ∀ e ∈ ((p.readInTurn r.engine reads).run (.start p)).1, e.2.Anchored

/-- Whatever its root and the paths in its manifest are, a project has absolute paths only. -/
theorem ofManifest_anchored (hc : cwd.isAbsolute = true) (h : ofManifest cwd m root = .ok (p, r)) :
    p.Anchored r := by
  obtain ⟨place, hp, hr, -, hw⟩ := ofManifest_eq_ok_iff.1 h
  have absolute := Path.isAbsolute_absolute? hc (absoluteRoot_eq_ok_iff.1 hp)
  have repository := Manifest.repository_anchored absolute hr
  have binaries := binaries_anchored absolute hw
  have wired : wire cwd m root = .ok p := bind_eq_ok.2 ⟨place, hp, hw⟩
  constructor
  case root => rwa [(wireAt_eq_ok hw).1]
  case sources => exact sources_anchored absolute hw
  case outputs => exact binaries
  case artifacts => exact fun d _ purpose view found hf => repository.resolve hf
  case headers => exact fun d _ maps hm => repository.moduleMaps hm
  case reads =>
    intro reads e he
    cases hk : e.1.slot? with
    | none =>
      obtain ⟨s, hs⟩ := exists_read he
      rw [hs]
      exact read_anchored binaries r.engine hk s
    | some place =>
      have log := (Faithful.start p r.engine).run (placed_of_wire wired) reads
      obtain ⟨n, -, hn⟩ := log.asked place.1 place.2 e.2 ⟨e.1, he, hk⟩
      rw [hn]
      exact repository.fetch _ n place.2

def scattered : Manifest where
  project := ⟨"app", none, ⟨"build"⟩, [⟨"Sources/main.swift"⟩, ⟨"/gen/./table.swift"⟩]⟩
  implementation := [":core"]
  binaries := []
  components := [⟨.project ":core", [⟨"headers", .ofList
    [("usage", .scalar (.string "swift-interface") none),
      ("debuggable", .scalar (.boolean true) none), ("optimized", .scalar (.boolean false) none),
      ("requires-module-map", .scalar (.boolean true) none)],
    [⟨"../core.h"⟩, ⟨""⟩], []⟩]⟩]

def scatteredCore : Repository where
  components := [⟨.project ":core", [⟨"headers",
    (Channel.requestedAttributes .compile .debug).merge ModuleMap.view,
    [⟨"/work/proj/../core.h"⟩, ⟨"/work/proj/"⟩], []⟩]⟩]

def scatteredCompile : Channel :=
  .ofBinary .compile .debug ⟨"implementation", [.project ":core"], by decide⟩

theorem ofManifest_anchored_scattered : ∃ p d,
    ofManifest ⟨"/work"⟩ scattered ⟨"./proj"⟩ = .ok (p, scatteredCore) ∧
      p.Anchored scatteredCore ∧ d ∈ p.binaries ∧
        ModuleMap.ofResolution (scatteredCore.resolve (ModuleMap.request d.channels.compile)) =
          .ok [⟨"core", ["/work/proj/../core.h", "/work/proj/"]⟩] := by
  have place : absoluteRoot ⟨"/work"⟩ ⟨"./proj"⟩ = .ok ⟨"/work/proj"⟩ := by decide +kernel
  have repository : scattered.repository ⟨"/work/proj"⟩ = .ok scatteredCore := by decide +kernel
  have valid : scatteredCore.validate = .ok () := by cbv
  have wired : (wireAt scattered ⟨"/work/proj"⟩).map
      (fun p => p.binaries.head?.map (·.channels.compile)) = .ok (some scatteredCompile) := by
    decide +kernel
  have maps : ModuleMap.ofResolution (scatteredCore.resolve (ModuleMap.request scatteredCompile)) =
      .ok [⟨"core", ["/work/proj/../core.h", "/work/proj/"]⟩] := by
    cbv
  cases hw : wireAt scattered ⟨"/work/proj"⟩ with
  | error e => simp [hw, Except.map] at wired
  | ok p =>
    rw [hw] at wired
    obtain ⟨d, hd, e⟩ := Option.map_eq_some_iff.1 (Except.ok.inj wired)
    have h : ofManifest ⟨"/work"⟩ scattered ⟨"./proj"⟩ = .ok (p, scatteredCore) :=
      ofManifest_eq_ok_iff.2 ⟨_, place, repository, valid, hw⟩
    exact ⟨p, d, h, ofManifest_anchored rfl h, List.mem_of_head? hd, e ▸ maps⟩

end Project

end NativeBuild
