import Mathlib.Data.List.Induction
import NativeBuild.Project
import NativeBuild.Proofs.Channel.Registry
import NativeBuild.Proofs.Except

namespace NativeBuild

def ProjectSection.NamesModule (p : ProjectSection) : Prop :=
  match p.moduleName with
  | some name => name ≠ "" ∧ ∀ c ∈ name.toList, Text.isAlphanumeric c = true ∨ c = '_'
  | none => ∃ c ∈ p.name.toList, Text.isAlphanumeric c = true

namespace ModuleName

variable {p : ProjectSection}

theorem isModuleName_iff {name : String} : isModuleName name = true ↔
    name ≠ "" ∧ ∀ c ∈ name.toList, Text.isAlphanumeric c = true ∨ c = '_' := by
  simp [isModuleName, isModuleNameChar]

theorem check_ok (h : p.NamesModule) : ∃ name, check p = .ok name := by
  unfold ProjectSection.NamesModule at h
  cases hp : p.moduleName with
  | some name =>
    simp only [hp] at h
    exact ⟨.given name, by simp [check, hp, isModuleName_iff.2 h]⟩
  | none =>
    simp only [hp] at h
    exact ⟨.derived p.name, by simpa [check, hp] using h⟩

theorem check_error (h : ¬p.NamesModule) :
    ∃ name reason, check p = .error (.invalidModuleName name reason) := by
  unfold ProjectSection.NamesModule at h
  unfold check
  cases hp : p.moduleName with
  | some name =>
    simp only [hp, ← isModuleName_iff] at h
    exact ⟨name, _, if_neg h⟩
  | none =>
    simp only [hp] at h
    exact ⟨p.name, _, if_neg (mt List.any_eq_true.1 h)⟩

end ModuleName

namespace Dependency

def Parses (s : String) : Prop :=
  ∃ d, parse s = .ok d

def FirstUnparsed (texts : List String) (s : String) : Prop :=
  ∃ before after, texts = before ++ s :: after ∧ (∀ t ∈ before, Parses t) ∧ ¬Parses s

theorem parse_error {s : String} {e : BuildError} (h : parse s = .error e) :
    ∃ reason, e = .invalidDependency s reason := by
  unfold parse at h
  cases hs : ofTrimmed (Text.trim s.toList) with
  | ok d =>
    rw [hs] at h
    cases h
  | error why =>
    rw [hs] at h
    cases h
    exact ⟨_, rfl⟩

theorem mapM_parse_error {texts : List String} {s : String} (h : FirstUnparsed texts s) :
    ∃ reason, texts.mapM parse = .error (.invalidDependency s reason) := by
  obtain ⟨before, after, rfl, hb, hs⟩ := h
  cases he : parse s with
  | ok d => exact absurd ⟨d, he⟩ hs
  | error e =>
    obtain ⟨reason, rfl⟩ := parse_error he
    exact ⟨reason, mapM_eq_error_iff.2 ⟨before, s, after, rfl, hb, he⟩⟩

theorem parses_or_firstUnparsed (texts : List String) :
    (∀ s ∈ texts, Parses s) ∨ ∃ s, FirstUnparsed texts s := by
  cases h : texts.mapM parse with
  | ok ds => exact .inl (mapM_eq_ok_iff.1 ⟨ds, h⟩)
  | error e =>
    obtain ⟨before, s, after, rfl, hb, hs⟩ := mapM_eq_error_iff.1 h
    refine .inr ⟨s, before, after, rfl, hb, ?_⟩
    rintro ⟨d, hd⟩
    rw [hs] at hd
    cases hd

end Dependency

namespace BinaryIdentity

/-- The first of several binaries that disagrees with an earlier one. -/
def FirstClash (binaries : List BinaryIdentity) (b : BinaryIdentity) : Prop :=
  ∃ before after, binaries = before ++ b :: after ∧ before.Pairwise Compatible ∧
    ∃ a ∈ before, ¬a.Compatible b

theorem pairwise_or_firstClash (binaries : List BinaryIdentity) :
    binaries.Pairwise Compatible ∨ ∃ b, FirstClash binaries b := by
  induction binaries using List.reverseRecOn with
  | nil => exact .inl .nil
  | append_singleton binaries b ih =>
    rcases ih with h | ⟨c, before, after, rfl, clash⟩
    · by_cases hb : ∀ a ∈ binaries, a.Compatible b
      · left
        rw [List.pairwise_append]
        simpa [h] using hb
      · right
        simp only [not_forall] at hb
        obtain ⟨a, ha, hab⟩ := hb
        exact ⟨b, binaries, [], rfl, h, a, ha, hab⟩
    · right
      exact ⟨c, before, after ++ [b], by simp, clash⟩

end BinaryIdentity

def Manifest.descriptors (m : Manifest) (root : Path) (implementation : DependencySet) :
    List Descriptor :=
  m.binaryIdentities.zipIdx.map fun (identity, i) =>
    .of (root.join m.project.buildDirectory) implementation i identity

theorem Manifest.identities_descriptors (m : Manifest) (root : Path)
    (implementation : DependencySet) :
    (m.descriptors root implementation).map (·.identity) = m.binaryIdentities := by
  simp only [descriptors, List.map_map]
  exact List.zipIdx_map_fst 0 m.binaryIdentities

theorem Manifest.mem_descriptors {m : Manifest} {root : Path} {implementation : DependencySet}
    {d : Descriptor} (h : d ∈ m.descriptors root implementation) :
    ∃ i, d = .of (root.join m.project.buildDirectory) implementation i d.identity := by
  obtain ⟨⟨identity, i⟩, -, rfl⟩ := List.mem_map.1 h
  exact ⟨i, rfl⟩

theorem Manifest.channels_of_mem_descriptors {m : Manifest} {root : Path}
    {implementation : DependencySet} :
    ∀ d ∈ m.descriptors root implementation, d.channels = .of d.identity implementation := by
  intro d h
  obtain ⟨i, hi⟩ := mem_descriptors h
  rw [hi]
  rfl

namespace Project

section Registering

variable {base : DependencySet} {seen : List BinaryIdentity} {r : Registry}
variable {binaries : List Descriptor}

theorem registerAll_cons (d : Descriptor) (binaries : List Descriptor) :
    registerAll (d :: binaries) = (do d.channels.register; registerAll binaries) := rfl

theorem run_registerAll_cons {d : Descriptor} {r' : Registry}
    (h : d.channels.register.run.run r = (.ok (), r')) :
    (registerAll (d :: binaries)).run.run r = (registerAll binaries).run.run r' := by
  rw [registerAll_cons, ExceptT.run_bind, StateT.run_bind, h]
  rfl

theorem run_registerAll_conflict {d : Descriptor} {e : BuildError} {r' : Registry}
    (h : d.channels.register.run.run r = (.error e, r')) :
    (registerAll (d :: binaries)).run.run r = (.error e, r') := by
  rw [registerAll_cons, ExceptT.run_bind, StateT.run_bind, h]
  rfl

theorem run_registerAll_append (h : r.Holds (Channel.ofBinaries base seen))
    (wired : ∀ d ∈ binaries, d.channels = .of d.identity base)
    (agree : (seen ++ binaries.map (·.identity)).Pairwise BinaryIdentity.Compatible) :
    ∃ r', r'.Holds (Channel.ofBinaries base (seen ++ binaries.map (·.identity))) ∧
      ∀ later, (registerAll (binaries ++ later)).run.run r = (registerAll later).run.run r' := by
  induction binaries generalizing r seen with
  | nil => exact ⟨r, by simpa using h, fun later => rfl⟩
  | cons d binaries ih =>
    rw [List.forall_mem_cons] at wired
    have hd : ∀ a ∈ seen, a.Compatible d.identity := by
      intro a ha
      exact (List.pairwise_append.1 agree).2.2 a ha _ List.mem_cons_self
    obtain ⟨r₁, e₁, h₁⟩ := h.register_binary hd
    rw [← wired.1] at e₁
    have split : seen ++ (d :: binaries).map (·.identity) =
        seen ++ [d.identity] ++ binaries.map (·.identity) := by
      simp
    rw [split] at agree ⊢
    obtain ⟨r', h', e'⟩ := ih h₁ wired.2 agree
    refine ⟨r', h', fun later => ?_⟩
    rw [List.cons_append, run_registerAll_cons e₁, e']

theorem run_registerAll_ok (wired : ∀ d ∈ binaries, d.channels = .of d.identity base)
    (agree : (binaries.map (·.identity)).Pairwise BinaryIdentity.Compatible) :
    ∃ r, (registerAll binaries).run.run .empty = (.ok (), r) ∧
      r.Holds (Channel.ofBinaries base (binaries.map (·.identity))) := by
  have start : Registry.Holds .empty (Channel.ofBinaries base []) := Registry.holds_empty
  obtain ⟨r, h, e⟩ := run_registerAll_append start wired agree
  have all := e []
  rw [List.append_nil] at all
  exact ⟨r, all, h⟩

theorem run_registerAll_clash (wired : ∀ d ∈ binaries, d.channels = .of d.identity base)
    {b : BinaryIdentity} (clash : BinaryIdentity.FirstClash (binaries.map (·.identity)) b) :
    ∃ r, (registerAll binaries).run.run .empty =
      (.error (.channelConflict (Purpose.compile.stem ++ capitalize b.name)), r) := by
  obtain ⟨before, after, e, agree, a, ha, hab⟩ := clash
  obtain ⟨front, rest, rfl, rfl, hr⟩ := List.map_eq_append_iff.1 e
  obtain ⟨d, later, rfl, rfl, -⟩ := List.map_eq_cons_iff.1 hr
  rw [List.forall_mem_append, List.forall_mem_cons] at wired
  have start : Registry.Holds .empty (Channel.ofBinaries base []) := Registry.holds_empty
  obtain ⟨r, h, e⟩ := run_registerAll_append start wired.1 agree
  refine ⟨r, ?_⟩
  rw [e]
  apply run_registerAll_conflict
  rw [wired.2.1]
  exact h.register_binary_conflict ha hab

end Registering

theorem wireAt_eq_ok {m : Manifest} {root : Path} {p : Project} (h : wireAt m root = .ok p) :
    p.root = root ∧ p.sources = .ofList (m.project.sources.map root.join) ∧
      p.binaries = m.descriptors root p.implementation := by
  obtain ⟨moduleName, -, h⟩ := bind_eq_ok.1 h
  obtain ⟨dependencies, -, h⟩ := bind_eq_ok.1 h
  obtain ⟨-, -, h⟩ := bind_eq_ok.1 h
  cases h
  exact ⟨rfl, rfl, rfl⟩

section Stages

variable {m : Manifest} {root : Path}

theorem wireAt_unnamed (h : ¬m.project.NamesModule) :
    ∃ name reason, wireAt m root = .error (.invalidModuleName name reason) := by
  obtain ⟨name, reason, hn⟩ := ModuleName.check_error h
  refine ⟨name, reason, ?_⟩
  rw [wireAt, hn]
  rfl

variable (named : m.project.NamesModule)
include named

theorem wireAt_unparsed (root : Path) {s : String} (h : Dependency.FirstUnparsed m.implementation s) :
    ∃ reason, wireAt m root = .error (.invalidDependency s reason) := by
  obtain ⟨name, hn⟩ := ModuleName.check_ok named
  obtain ⟨reason, hd⟩ := Dependency.mapM_parse_error h
  refine ⟨reason, ?_⟩
  rw [wireAt, hn, hd]
  rfl

variable (parses : ∀ s ∈ m.implementation, Dependency.Parses s)
include parses

theorem wireAt_registering (root : Path) : ∃ name dependencies,
    let implementation := DependencySet.ofList "implementation" dependencies
    let registered := (registerAll (m.descriptors root implementation)).run.run .empty
    wireAt m root = registered.1.map fun _ =>
      { name := m.project.name, root, moduleName := name, implementation,
        sources := .ofList (m.project.sources.map root.join), channels := registered.2,
        binaries := m.descriptors root implementation } := by
  obtain ⟨name, hn⟩ := ModuleName.check_ok named
  obtain ⟨dependencies, hd⟩ := mapM_eq_ok_iff.2 parses
  refine ⟨name, dependencies, ?_⟩
  rw [wireAt, hn, hd]
  rfl

theorem wireAt_clash {b : BinaryIdentity}
    (clash : BinaryIdentity.FirstClash m.binaryIdentities b) :
    wireAt m root = .error (.channelConflict (Purpose.compile.stem ++ capitalize b.name)) := by
  obtain ⟨name, dependencies, e⟩ := wireAt_registering named parses root
  rw [← m.identities_descriptors root (.ofList "implementation" dependencies)] at clash
  obtain ⟨r, hr⟩ := run_registerAll_clash Manifest.channels_of_mem_descriptors clash
  rw [e, hr]
  rfl

theorem wireAt_agree (root : Path) (agree : m.binaryIdentities.Pairwise BinaryIdentity.Compatible) :
    ∃ p base, wireAt m root = .ok p ∧ p.binaries.map (·.identity) = m.binaryIdentities ∧
      p.channels.Holds (Channel.ofBinaries base m.binaryIdentities) := by
  obtain ⟨name, dependencies, e⟩ := wireAt_registering named parses root
  have identities := m.identities_descriptors root (.ofList "implementation" dependencies)
  rw [← identities] at agree
  obtain ⟨r, hr, holds⟩ := run_registerAll_ok Manifest.channels_of_mem_descriptors agree
  rw [identities] at holds
  simp only [hr] at e
  exact ⟨_, _, e, identities, holds⟩

omit parses in
theorem wireAt_cases (root : Path) :
    (∃ s reason, Dependency.FirstUnparsed m.implementation s ∧
      wireAt m root = .error (.invalidDependency s reason)) ∨
    (∃ b, BinaryIdentity.FirstClash m.binaryIdentities b ∧
      wireAt m root = .error (.channelConflict (Purpose.compile.stem ++ capitalize b.name))) ∨
    ∃ p, wireAt m root = .ok p := by
  rcases Dependency.parses_or_firstUnparsed m.implementation with parses | ⟨s, first⟩
  · rcases BinaryIdentity.pairwise_or_firstClash m.binaryIdentities with agree | ⟨b, clash⟩
    · obtain ⟨p, -, e, -⟩ := wireAt_agree named parses root agree
      exact .inr (.inr ⟨p, e⟩)
    · exact .inr (.inl ⟨b, clash, wireAt_clash named parses clash⟩)
  · obtain ⟨reason, e⟩ := wireAt_unparsed named root first
    exact .inl ⟨s, reason, first, e⟩

end Stages

/-- Where the root has an absolute form, wiring a manifest decides in this order. Without a module
name it fails. Otherwise it fails with the first text that is no notation of a dependency. Otherwise
it fails with the compile channel of the first binary that has the capitalized name of an earlier
one, and not its flags. Otherwise it gives a descriptor to each binary, in their order, and
registers three channels for each capitalized name. -/
theorem wire_decides {cwd root place : Path} (h : absoluteRoot cwd root = .ok place) (m : Manifest) :
    let declared := if m.binaries = [] then BinaryIdentity.conventional else m.binaries
    let words := (declared.map fun b => capitalize b.name).dedup
    ((∃ name reason, wire cwd m root = .error (.invalidModuleName name reason)) ↔
      ¬m.project.NamesModule) ∧
    (m.project.NamesModule →
      (∀ s, (∃ reason, wire cwd m root = .error (.invalidDependency s reason)) ↔
        Dependency.FirstUnparsed m.implementation s) ∧
      ((∀ s ∈ m.implementation, Dependency.Parses s) →
        (∀ name, wire cwd m root = .error (.channelConflict name) ↔
          ∃ b, BinaryIdentity.FirstClash declared b ∧ name = "swiftCompile" ++ capitalize b.name) ∧
        (declared.Pairwise BinaryIdentity.Compatible → ∃ p, wire cwd m root = .ok p ∧
          p.binaries.map (·.identity) = declared ∧
          p.channels.keys.Perm (words.flatMap fun word => Purpose.all.map (·.stem ++ word)) ∧
          p.channels.size = 3 * words.length))) := by
  intro declared words
  have hw : wire cwd m root = wireAt m place := by
    rw [wire, h]
    rfl
  have hdeclared : m.binaryIdentities = declared := by
    simp only [Manifest.binaryIdentities, List.isEmpty_iff, declared]
  rw [hw, ← hdeclared]
  refine ⟨⟨?_, wireAt_unnamed⟩, fun named => ⟨fun s => ⟨?_, wireAt_unparsed named place⟩, fun parses =>
    ⟨fun name => ⟨?_, ?_⟩, fun agree => ?_⟩⟩⟩
  · rintro ⟨name, reason, e⟩ named
    rcases wireAt_cases named place with ⟨_, _, -, he⟩ | ⟨_, -, he⟩ | ⟨_, he⟩ <;> simp [he] at e
  · rintro ⟨reason, e⟩
    rcases wireAt_cases named place with ⟨t, _, first, he⟩ | ⟨_, -, he⟩ | ⟨_, he⟩ <;> simp [he] at e
    exact e.1 ▸ first
  · intro e
    rcases wireAt_cases named place with ⟨_, _, -, he⟩ | ⟨b, clash, he⟩ | ⟨_, he⟩ <;> simp [he] at e
    exact ⟨b, clash, e.symm⟩
  · rintro ⟨b, clash, rfl⟩
    exact wireAt_clash named parses clash
  · obtain ⟨p, base, e, identities, holds⟩ := wireAt_agree named parses place agree
    have keys := holds.keys_perm
    rw [hdeclared] at keys
    refine ⟨p, e, identities, keys, ?_⟩
    rw [Dict.size, ← List.length_map (·.1), ← Dict.keys, keys.length_eq]
    simp [words, Purpose.all, Nat.mul_comm]

def withBinaries (binaries : List BinaryIdentity) : Manifest where
  project := ⟨"app", none, ⟨"build"⟩, []⟩
  implementation := [":core"]
  binaries := binaries
  components := []

theorem wire_decides_namesakes :
    let debug := BinaryIdentity.debug
    let testable : BinaryIdentity := ⟨"Debug", true, false, true⟩
    let fast : BinaryIdentity := ⟨"Debug", true, true, false⟩
    absoluteRoot ⟨"/"⟩ ⟨"app"⟩ = .ok ⟨"/app"⟩ ∧
      (∃ p, wire ⟨"/"⟩ (withBinaries [debug, testable]) ⟨"app"⟩ = .ok p ∧ p.channels.size = 3) ∧
      wire ⟨"/"⟩ (withBinaries [debug, testable, fast]) ⟨"app"⟩ =
        .error (.channelConflict "swiftCompileDebug") := by
  intro debug testable fast
  have h : absoluteRoot ⟨"/"⟩ ⟨"app"⟩ = .ok ⟨"/app"⟩ := by decide +kernel
  have letter : 'a' ∈ "app".toList ∧ Text.isAlphanumeric 'a' = true := by decide +kernel
  have named : ∀ binaries, (withBinaries binaries).project.NamesModule := fun _ => ⟨'a', letter⟩
  have parses : ∀ binaries, ∀ s ∈ (withBinaries binaries).implementation, Dependency.Parses s := by
    simp only [withBinaries, List.forall_mem_singleton]
    exact fun _ => ⟨.project ":core", by decide +kernel⟩
  refine ⟨h, ?_, ?_⟩
  · obtain ⟨p, e, -, -, size⟩ :=
      (((wire_decides h _).2 (named [debug, testable])).2 (parses _)).2 (by decide +kernel)
    exact ⟨p, e, size.trans (by decide +kernel)⟩
  · refine ((((wire_decides h _).2 (named [debug, testable, fast])).2 (parses _)).1 _).2 ⟨fast, ?_, ?_⟩
    · exact ⟨[debug, testable], [], rfl, by decide +kernel, debug, by decide, by decide +kernel⟩
    · decide +kernel

end Project

end NativeBuild
