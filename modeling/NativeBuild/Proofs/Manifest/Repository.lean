import NativeBuild.Proofs.Dict
import NativeBuild.Proofs.Project.Wiring
import NativeBuild.Proofs.Text.Bytes

namespace NativeBuild

namespace AttributeValue

/-- What a manifest may set an attribute to, with the value that the attribute then has. -/
inductive Sets : String → Document → AttributeValue → Prop
  | usage (u : Usage) (span : Option Span) :
      Sets "usage" (.scalar (.string u.label) span) (.usage u)
  | flag {name : String} (known : name ∈ ["debuggable", "optimized", "requires-module-map"])
      (value : Bool) (span : Option Span) : Sets name (.scalar (.boolean value) span) (.flag value)

variable {name : String} {raw : Document} {value : AttributeValue} {e : BuildError}

theorem label_of_ofLabel? {text : String} {u : Usage} (h : Usage.ofLabel? text = some u) :
    u.label = text := by
  simpa using List.find?_some h

theorem sets_of_ofEntry (h : ofEntry name raw = .ok value) : Sets name raw value := by
  unfold ofEntry at h
  split_ifs at h with isUsage isFlag
  · subst isUsage
    split at h
    · split at h
      · rename_i u found
        cases h
        rw [← label_of_ofLabel? found]
        exact .usage u _
      · cases h
    · cases h
  · split at h
    · cases h
      exact .flag isFlag _ _
    · cases h

theorem ofEntry_eq_ok_iff : ofEntry name raw = .ok value ↔ Sets name raw value := by
  refine ⟨sets_of_ofEntry, fun h => ?_⟩
  cases h with
  | usage u span => simp [ofEntry, Attribute.usage]
  | flag known value span =>
    have other : name ≠ Attribute.usage.name := by
      rintro rfl
      exact absurd known (by decide)
    have isFlag : name ∈ flagNames := known
    rw [ofEntry, if_neg other, if_pos isFlag]

theorem ofEntry_error (h : ofEntry name raw = .error e) :
    ∃ reason, e = .invalidAttribute name reason := by
  unfold ofEntry at h
  split_ifs at h
  · split at h
    · split at h
      · cases h
      · exact ⟨_, (Except.error.inj h).symm⟩
    · exact ⟨_, (Except.error.inj h).symm⟩
  · split at h
    · cases h
    · exact ⟨_, (Except.error.inj h).symm⟩
  · exact ⟨_, (Except.error.inj h).symm⟩

end AttributeValue

namespace VariantSection

structure Readable (s : VariantSection) : Prop where
  attributes : ∀ name raw, s.attributes.get? name = some raw →
    ∃ value, AttributeValue.Sets name raw value
  dependencies : ∀ text ∈ s.dependencies, Dependency.Parses text

structure Reads (root : Path) (s : VariantSection) (v : Variant) : Prop where
  name : v.name = s.name
  attributes : List.Forall₂
    (fun given read => read.1 = given.1 ∧ AttributeValue.Sets given.1 given.2 read.2)
    s.attributes.entries v.attributes.entries
  files : v.files = s.files.map root.join
  dependencies : List.Forall₂ (fun text d => Dependency.parse text = .ok d)
    s.dependencies v.dependencies

/-- The defect of a variant: in its attribute of the least name, bytewise, that has one, or else in
the first of its dependencies. -/
inductive Defect (s : VariantSection) : BuildError → Prop
  | ofAttribute {name raw reason} : s.attributes.get? name = some raw →
      AttributeValue.ofEntry name raw = .error (.invalidAttribute name reason) →
      (∀ name' raw', s.attributes.get? name' = some raw' → utf8 name' < utf8 name →
        ∃ value, AttributeValue.Sets name' raw' value) →
      Defect s (.invalidAttribute name reason)
  | ofDependency {before text after reason} :
      (∀ name raw, s.attributes.get? name = some raw →
        ∃ value, AttributeValue.Sets name raw value) →
      s.dependencies = before ++ text :: after → (∀ t ∈ before, Dependency.Parses t) →
      Dependency.parse text = .error (.invalidDependency text reason) →
      Defect s (.invalidDependency text reason)

def readEntry (given : String × Document) : Except BuildError (String × AttributeValue) := do
  return (given.1, ← AttributeValue.ofEntry given.1 given.2)

theorem readEntry_eq_ok_iff {given : String × Document} {read : String × AttributeValue} :
    readEntry given = .ok read ↔
      read.1 = given.1 ∧ AttributeValue.Sets given.1 given.2 read.2 := by
  rw [readEntry, bind_eq_ok]
  simp only [AttributeValue.ofEntry_eq_ok_iff, pure, Except.pure, Except.ok.injEq]
  constructor
  · rintro ⟨value, sets, rfl⟩
    exact ⟨rfl, sets⟩
  · rintro ⟨same, sets⟩
    exact ⟨read.2, sets, by rw [← same]⟩

theorem readEntry_eq_error_iff {given : String × Document} {e : BuildError} :
    readEntry given = .error e ↔ AttributeValue.ofEntry given.1 given.2 = .error e :=
  bind_pure_eq_error

def readAttributes (s : VariantSection) : Except BuildError (List (String × AttributeValue)) :=
  s.attributes.entries.mapM readEntry

variable {s : VariantSection} {root : Path} {v : Variant} {e : BuildError}

theorem resolve_eq (s : VariantSection) (root : Path) : s.resolve root = (do
    let attributes ← s.readAttributes
    let dependencies ← s.dependencies.mapM Dependency.parse
    return ⟨s.name, .ofList attributes, s.files.map root.join, dependencies⟩) := rfl

theorem readAttributes_eq_ok_iff {attributes : List (String × AttributeValue)} :
    s.readAttributes = .ok attributes ↔ List.Forall₂
      (fun given read => read.1 = given.1 ∧ AttributeValue.Sets given.1 given.2 read.2)
      s.attributes.entries attributes := by
  simp only [readAttributes, mapM_eq_ok_iff_forall₂, readEntry_eq_ok_iff]

theorem entries_ofList_readAttributes {attributes : List (String × AttributeValue)}
    (h : s.readAttributes = .ok attributes) :
    (Dict.ofList attributes).entries = attributes := by
  apply Dict.entries_ofList
  have names : attributes.map (·.1) = s.attributes.entries.map (·.1) := by
    rw [← List.forall₂_eq_eq_eq, List.forall₂_map_left_iff, List.forall₂_map_right_iff]
    exact (readAttributes_eq_ok_iff.1 h).flip.imp fun _ _ same => same.1
  have order : (s.attributes.entries.map (·.1)).Pairwise fun k l => compare k l = .lt :=
    List.pairwise_map.2 s.attributes.ascending
  rw [← names] at order
  exact List.pairwise_map.1 order

theorem resolve_eq_ok_iff : s.resolve root = .ok v ↔ s.Reads root v := by
  rw [resolve_eq]
  simp only [bind_eq_ok, pure, Except.pure, Except.ok.injEq]
  constructor
  · rintro ⟨attributes, ha, dependencies, hd, rfl⟩
    constructor
    case name => rfl
    case attributes =>
      rw [entries_ofList_readAttributes ha]
      exact readAttributes_eq_ok_iff.1 ha
    case files => rfl
    case dependencies => exact mapM_eq_ok_iff_forall₂.1 hd
  · intro h
    refine ⟨v.attributes.entries, readAttributes_eq_ok_iff.2 h.attributes, v.dependencies,
      mapM_eq_ok_iff_forall₂.2 h.dependencies, ?_⟩
    rw [← h.name, ← h.files]
    congr
    exact Dict.empty_merge v.attributes

theorem readAttributes_ok_iff : (∃ attributes, s.readAttributes = .ok attributes) ↔
    ∀ name raw, s.attributes.get? name = some raw → ∃ value, AttributeValue.Sets name raw value := by
  rw [readAttributes, mapM_eq_ok_iff]
  simp only [Prod.forall, ← Dict.get?_eq_some_iff, readEntry_eq_ok_iff]
  constructor
  · intro h name raw given
    obtain ⟨read, -, sets⟩ := h name raw given
    exact ⟨read.2, sets⟩
  · intro h name raw given
    obtain ⟨value, sets⟩ := h name raw given
    exact ⟨(name, value), rfl, sets⟩

theorem resolve_ok_iff : (∃ v, s.resolve root = .ok v) ↔ s.Readable := by
  simp only [resolve_eq, bind_eq_ok, pure, Except.pure, Except.ok.injEq]
  constructor
  · rintro ⟨v, attributes, ha, dependencies, hd, -⟩
    exact ⟨readAttributes_ok_iff.1 ⟨attributes, ha⟩, mapM_eq_ok_iff.1 ⟨dependencies, hd⟩⟩
  · intro h
    obtain ⟨attributes, ha⟩ := readAttributes_ok_iff.2 h.attributes
    obtain ⟨dependencies, hd⟩ := mapM_eq_ok_iff.2 h.dependencies
    exact ⟨_, attributes, ha, dependencies, hd, rfl⟩

theorem readAttributes_eq_error_iff : s.readAttributes = .error e ↔
    ∃ name raw reason, s.attributes.get? name = some raw ∧
      AttributeValue.ofEntry name raw = .error (.invalidAttribute name reason) ∧
      (∀ name' raw', s.attributes.get? name' = some raw' → utf8 name' < utf8 name →
        ∃ value, AttributeValue.Sets name' raw' value) ∧
      e = .invalidAttribute name reason := by
  rw [readAttributes, mapM_eq_error_iff]
  simp only [readEntry_eq_error_iff, readEntry_eq_ok_iff]
  constructor
  · rintro ⟨before, ⟨name, raw⟩, after, split, sound, he⟩
    obtain ⟨reason, rfl⟩ := AttributeValue.ofEntry_error he
    refine ⟨name, raw, reason, Dict.get?_eq_some_iff.2 (by simp [split]), he, ?_, rfl⟩
    intro name' raw' given less
    have mem := (Dict.mem_before_iff split).2
      ⟨Dict.get?_eq_some_iff.1 given, compare_eq_lt_iff_utf8.2 less⟩
    obtain ⟨read, -, sets⟩ := sound _ mem
    exact ⟨read.2, sets⟩
  · rintro ⟨name, raw, reason, given, he, least, rfl⟩
    obtain ⟨before, after, split⟩ := List.append_of_mem (Dict.get?_eq_some_iff.1 given)
    refine ⟨before, (name, raw), after, split, ?_, he⟩
    rintro ⟨name', raw'⟩ mem
    obtain ⟨mem, less⟩ := (Dict.mem_before_iff split).1 mem
    obtain ⟨value, sets⟩ := least name' raw' (Dict.get?_eq_some_iff.2 mem)
      (compare_eq_lt_iff_utf8.1 less)
    exact ⟨(name', value), rfl, sets⟩

theorem resolve_eq_error_iff : s.resolve root = .error e ↔ s.Defect e := by
  rw [resolve_eq, bind_eq_error]
  constructor
  · rintro (ha | ⟨attributes, ha, h⟩)
    · obtain ⟨name, raw, reason, given, he, least, rfl⟩ := readAttributes_eq_error_iff.1 ha
      exact .ofAttribute given he least
    · obtain ⟨before, text, after, split, sound, he⟩ :=
        mapM_eq_error_iff.1 (bind_pure_eq_error.1 h)
      obtain ⟨reason, rfl⟩ := Dependency.parse_error he
      exact .ofDependency (readAttributes_ok_iff.1 ⟨attributes, ha⟩) split sound he
  · intro h
    cases h with
    | ofAttribute given he least =>
      exact .inl (readAttributes_eq_error_iff.2 ⟨_, _, _, given, he, least, rfl⟩)
    | ofDependency sound split parses he =>
      obtain ⟨attributes, ha⟩ := readAttributes_ok_iff.2 sound
      exact .inr ⟨attributes, ha,
        bind_pure_eq_error.2 (mapM_eq_error_iff.2 ⟨_, _, _, split, parses, he⟩)⟩

end VariantSection

structure ComponentSection.Reads (root : Path) (s : ComponentSection) (c : Component) : Prop where
  id : c.id = s.id
  variants : List.Forall₂ (VariantSection.Reads root) s.variants c.variants

namespace ComponentSection

variable {s : ComponentSection} {root : Path} {c : Component} {e : BuildError}

theorem resolve_eq_ok_iff : s.resolve root = .ok c ↔ s.Reads root c := by
  rw [resolve, bind_eq_ok]
  simp only [mapM_eq_ok_iff_forall₂, VariantSection.resolve_eq_ok_iff, pure, Except.pure,
    Except.ok.injEq]
  constructor
  · rintro ⟨variants, reads, rfl⟩
    exact ⟨rfl, reads⟩
  · rintro ⟨id, reads⟩
    exact ⟨c.variants, reads, by rw [← id]⟩

theorem resolve_eq_error_iff (s : ComponentSection) (e : BuildError) :
    s.resolve root = .error e ↔ s.variants.mapM (·.resolve root) = .error e :=
  bind_pure_eq_error

end ComponentSection

namespace Manifest

variable {m : Manifest} {root : Path} {e : BuildError}

def variants (m : Manifest) : List VariantSection :=
  m.components.flatMap (·.variants)

theorem repository_eq_ok_iff {r : Repository} : m.repository root = .ok r ↔
    List.Forall₂ (ComponentSection.Reads root) m.components r.components := by
  rw [repository, bind_eq_ok]
  simp only [mapM_eq_ok_iff_forall₂, ComponentSection.resolve_eq_ok_iff, pure, Except.pure,
    Except.ok.injEq]
  constructor
  · rintro ⟨components, reads, rfl⟩
    exact reads
  · intro reads
    exact ⟨r.components, reads, rfl⟩

theorem repository_eq_error_iff_variants :
    m.repository root = .error e ↔ m.variants.mapM (·.resolve root) = .error e := by
  rw [repository, bind_pure_eq_error]
  exact mapM_eq_error_iff_flatMap ComponentSection.resolve_eq_error_iff

theorem repository_eq_error_iff : m.repository root = .error e ↔
    ∃ before v after, m.variants = before ++ v :: after ∧ (∀ u ∈ before, u.Readable) ∧
      v.Defect e := by
  rw [repository_eq_error_iff_variants, mapM_eq_error_iff]
  simp only [VariantSection.resolve_ok_iff, VariantSection.resolve_eq_error_iff]

theorem repository_ok_iff : (∃ r, m.repository root = .ok r) ↔ ∀ v ∈ m.variants, v.Readable := by
  rw [ok_of_error_iff fun e => repository_eq_error_iff_variants, mapM_eq_ok_iff]
  simp only [VariantSection.resolve_ok_iff]

/-- A manifest gives a repository if all attributes and dependencies of its variants can be read,
and then one that has what the manifest declares, one to one and in order. Otherwise the failure is
the defect of the first variant that has one. -/
theorem repository_reads (m : Manifest) (root : Path) :
    ((∃ r, m.repository root = .ok r) ↔ ∀ c ∈ m.components, ∀ v ∈ c.variants, v.Readable) ∧
    (∀ r, m.repository root = .ok r ↔
      List.Forall₂ (ComponentSection.Reads root) m.components r.components) ∧
    ∀ e, m.repository root = .error e ↔ ∃ before v after,
      m.components.flatMap (·.variants) = before ++ v :: after ∧ (∀ u ∈ before, u.Readable) ∧
        v.Defect e := by
  refine ⟨?_, fun r => repository_eq_ok_iff, fun e => repository_eq_error_iff⟩
  rw [repository_ok_iff]
  exact List.forall_mem_flatMap

def marred : Manifest where
  project := ⟨"app", none, ⟨"build"⟩, []⟩
  implementation := []
  binaries := []
  components := [
    ⟨.project ":core", [⟨"api", .ofList [("debuggable", .scalar (.boolean true) none)], [⟨"core.h"⟩],
      [" org:Json "]⟩]⟩,
    ⟨.project ":deep", [⟨"empty", .empty, [], []⟩, ⟨"api", .ofList
      [("usage", .scalar (.boolean true) none), ("arch", .scalar (.string "arm") none)], [],
      ["a::b"]⟩]⟩,
    ⟨.project ":end", [⟨"api", .empty, [], [""]⟩]⟩]

theorem repository_reads_marred :
    let sound := marred.components.take 1
    (∃ before v after, marred.components.flatMap (·.variants) = before ++ v :: after ∧
      (∀ u ∈ before, u.Readable) ∧ v.Defect (.invalidAttribute "arch" "unknown attribute")) ∧
    List.Forall₂ (ComponentSection.Reads ⟨"/proj"⟩) sound
      [⟨.project ":core", [⟨"api", .ofList [("debuggable", .flag true)], [⟨"/proj/core.h"⟩],
        [.module "org" "Json" ""]⟩]⟩] := by
  intro sound
  constructor
  · have failure : marred.repository ⟨"/proj"⟩ =
        .error (.invalidAttribute "arch" "unknown attribute") := by
      decide +kernel
    exact ((repository_reads marred ⟨"/proj"⟩).2.2 _).1 failure
  · have success : ({ marred with components := sound } : Manifest).repository ⟨"/proj"⟩ =
        .ok ⟨[⟨.project ":core", [⟨"api", .ofList [("debuggable", .flag true)], [⟨"/proj/core.h"⟩],
          [.module "org" "Json" ""]⟩]⟩]⟩ := by
      decide +kernel
    exact ((repository_reads _ ⟨"/proj"⟩).2.1 _).1 success

end Manifest

end NativeBuild
