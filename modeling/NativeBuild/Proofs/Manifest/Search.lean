import NativeBuild.Project.Load
import NativeBuild.Proofs.Files.Tree

namespace NativeBuild

open NativeBuild.Path FileTree

variable {t : FileTree}

def FileTree.HasManifest (t : FileTree) (dir : List Step) : Prop :=
  ∃ place text, t.walk? [] dir = some place ∧ t.entry? place = some .directory ∧
    t.entry? (place ++ [Manifest.fileName]) = some (.file text)

theorem FileTree.hasManifest_iff {dir : List Step} : t.HasManifest dir ↔ ∃ place text,
    t.walk? [] (dir ++ [.name Manifest.fileName]) = some place ∧
      t.entry? place = some (.file text) := by
  have entryName : isEntryName Manifest.fileName = true := by decide +kernel
  simp only [HasManifest, walk?_append, walk?_singleton, Option.bind_eq_some_iff]
  constructor
  · rintro ⟨place, text, hw, hd, he⟩
    exact ⟨_, text, ⟨place, hw, by simp [step?, hd, entryName]⟩, he⟩
  · rintro ⟨_, text, ⟨place, hw, hs⟩, he⟩
    have hd := isDirectory_of_step? hs
    simp only [step?, hd, entryName, if_true, Option.some.injEq] at hs
    subst hs
    exact ⟨place, text, hw, hd, he⟩

theorem FileSystem.run_firstFile? (paths : List Path) (t : FileTree) :
    (firstFile? paths : StateM FileTree _).run t = (paths.find? t.isFile, t) := by
  induction paths with
  | nil => rfl
  | cons p paths ih =>
    have asks : (isFile p : StateM FileTree Bool).run t = (t.isFile p, t) := rfl
    rw [firstFile?, StateT.run_bind, asks, List.find?_cons]
    cases hp : t.isFile p with
    | true => rfl
    | false => exact ih

namespace Manifest

variable {w start a : Path} {dir : List Step}

theorem spelled_fileName : (Step.name fileName).Spelled := by decide +kernel

theorem run_find? (start : Path) (t : FileTree) : (find? start : StateM FileTree _).run t =
    ((start.ancestors.find? fun a => t.isFile (a.child fileName)).map (·.child fileName), t) := by
  rw [find?, FileSystem.run_firstFile?, candidates, List.find?_map]
  rfl

/-- The directories that a search looks at, by their steps from the root. -/
def Searched (w start : Path) (dir : List Step) : Prop :=
  dir <+: (w.join start).trail ∧ (start.isAbsolute = true ∨ w.trail <+: dir)

theorem searched_iff : Searched w start dir ↔ ∃ a ∈ start.ancestors, (w.join a).trail = dir := by
  rw [Searched]
  cases hs : start.isAbsolute with
  | true =>
    rw [join_of_isAbsolute hs, and_iff_left (.inl rfl)]
    constructor
    · intro h
      obtain ⟨a, ha, e⟩ := exists_mem_ancestors h
      refine ⟨a, ha, ?_⟩
      rw [join_of_isAbsolute ((mem_ascend ha).2.1.trans hs), e]
    · rintro ⟨a, ha, rfl⟩
      rw [join_of_isAbsolute ((mem_ascend ha).2.1.trans hs)]
      exact (mem_ascend ha).1
  | false =>
    -- The text of a relative start shows nothing of what the working directory lies in.
    have below {a : Path} (ha : a ∈ start.ancestors) : (w.join a).trail = w.trail ++ a.trail :=
      trail_join ((mem_ascend ha).2.1.trans hs)
    rw [trail_join hs]
    constructor
    · rintro ⟨h, absolute | ⟨way, rfl⟩⟩
      · cases absolute
      · obtain ⟨a, ha, e⟩ := exists_mem_ancestors ((List.prefix_append_right_inj _).1 h)
        exact ⟨a, ha, by rw [below ha, e]⟩
    · rintro ⟨a, ha, rfl⟩
      rw [below ha]
      exact ⟨(List.prefix_append_right_inj _).2 (mem_ascend ha).1, .inr (List.prefix_append _ _)⟩

theorem pairwise_ancestors (w start : Path) :
    start.ancestors.Pairwise fun a b => (w.join b).trail <+: (w.join a).trail := by
  refine (pairwise_ascend start _).imp_of_mem fun {a b} ha hb order => ?_
  have same := (mem_ascend ha).2.1.trans (mem_ascend hb).2.1.symm
  cases hb : b.isAbsolute with
  | true => rwa [join_of_isAbsolute hb, join_of_isAbsolute (same.trans hb)]
  | false =>
    rw [trail_join hb, trail_join (same.trans hb)]
    exact (List.prefix_append_right_inj _).2 order

theorem isFile_child_iff (h : t.Grounded) (ha : a ∈ start.ancestors)
    (short : (start.child fileName).text.utf8ByteSize < maxPathSize) :
    t.isFile (a.child fileName) = true ↔ t.HasManifest ((pathOf t.workingPlace).join a).trail := by
  have relative : isAbsolute ⟨fileName⟩ = false := spelled_fileName.isAbsolute_label
  have file : (a.child fileName).endsIdle = false := by
    rw [child, endsIdle_join relative]
    decide +kernel
  have size := Nat.lt_of_le_of_lt (size_child_le (mem_ascend ha).2.2 relative) short
  have text : (a.child fileName).text ≠ "" := by
    intro ht
    simp [endsIdle, ht, isIdle] at file
  have start : t.origin ((pathOf t.workingPlace).join (a.child fileName)) = [] := by
    simp [origin, isAbsolute_join, h.isNormal.isAbsolute]
  have walk := h.walk?_join (a.child fileName)
  have steps : ((pathOf t.workingPlace).join (a.child fileName)).trail =
      ((pathOf t.workingPlace).join a).trail ++ [.name fileName] :=
    trail_join_child spelled_fileName _ a
  rw [start, steps] at walk
  simp only [isFile_iff, lookup_file_iff, hasManifest_iff, walk]
  constructor
  · rintro ⟨text, -, -, place, hw⟩
    exact ⟨place, text, hw⟩
  · rintro ⟨place, content, hw⟩
    exact ⟨content, ⟨text, size⟩, file, place, hw⟩

/-- A search finds a manifest if there is one in a directory that it looks at, and finds the nearest
one. -/
theorem find?_nearest (h : t.Grounded) (start : Path)
    (short : (start.child fileName).text.utf8ByteSize < maxPathSize) :
    let w := pathOf t.workingPlace
    let found := ((find? start : StateM FileTree _).run t).1
    ((∃ file, found = some file) ↔ ∃ dir, Searched w start dir ∧ t.HasManifest dir) ∧
      ∀ file, found = some file → t.isFile file = true ∧
        ∃ dir, (w.join file).trail = dir ++ [.name fileName] ∧ Searched w start dir ∧
          t.HasManifest dir ∧ ∀ dir', Searched w start dir' → t.HasManifest dir' → dir' <+: dir := by
  intro w found
  have found_eq : found = (start.ancestors.find? fun a => t.isFile (a.child fileName)).map
      (·.child fileName) :=
    congrArg Prod.fst (run_find? start t)
  have manifest {a : Path} (ha : a ∈ start.ancestors) :
      t.isFile (a.child fileName) = true ↔ t.HasManifest (w.join a).trail :=
    isFile_child_iff h ha short
  constructor
  · constructor
    · rintro ⟨file, hf⟩
      rw [found_eq, Option.map_eq_some_iff] at hf
      obtain ⟨a, ha, -⟩ := hf
      have member := List.mem_of_find?_eq_some ha
      have isFile := List.find?_some ha
      exact ⟨_, searched_iff.2 ⟨a, member, rfl⟩, (manifest member).1 isFile⟩
    · rintro ⟨dir, searched, here⟩
      obtain ⟨a, ha, rfl⟩ := searched_iff.1 searched
      have some : (start.ancestors.find? fun a => t.isFile (a.child fileName)).isSome := by
        rw [List.find?_isSome]
        exact ⟨a, ha, (manifest ha).2 here⟩
      obtain ⟨b, hb⟩ := Option.isSome_iff_exists.1 some
      exact ⟨b.child fileName, by rw [found_eq, hb]; rfl⟩
  · intro file hf
    rw [found_eq, Option.map_eq_some_iff] at hf
    obtain ⟨a, ha, rfl⟩ := hf
    obtain ⟨isFile, before, after, split, none⟩ := List.find?_eq_some_iff_append.1 ha
    have member : a ∈ start.ancestors := by simp [split]
    refine ⟨isFile, (w.join a).trail, trail_join_child spelled_fileName w a,
      searched_iff.2 ⟨a, member, rfl⟩, (manifest member).1 isFile, ?_⟩
    intro dir' searched here
    obtain ⟨b, hb, rfl⟩ := searched_iff.1 searched
    have isFile' := (manifest hb).2 here
    have order := pairwise_ancestors w start
    rw [split, List.pairwise_append, List.pairwise_cons] at order
    rw [split] at hb
    -- What was looked at before has no manifest, and what comes after lies further up.
    rcases List.mem_append.1 hb with hb | hb
    · have := none b hb
      simp [isFile'] at this
    · rcases List.mem_cons.1 hb with rfl | hb
      · exact List.prefix_rfl
      · exact order.2.1.1 b hb

def outpost : FileTree :=
  (FileTree.rooted ["a", "b"]).put ["a", fileName] (.file "")

theorem grounded_outpost : outpost.Grounded where
  named := by decide +kernel
  inits := by decide +kernel

theorem find?_nearest_outpost :
    let w := pathOf outpost.workingPlace
    ((find? w : StateM FileTree _).run outpost).1 = some ⟨"/a/native.toml"⟩ ∧
      ∃ dir, (w.join ⟨"/a/native.toml"⟩).trail = dir ++ [.name fileName] ∧ Searched w w dir ∧
        outpost.HasManifest dir ∧
          ∀ dir', Searched w w dir' → outpost.HasManifest dir' → dir' <+: dir := by
  intro w
  have found : ((find? w : StateM FileTree _).run outpost).1 = some ⟨"/a/native.toml"⟩ := by
    decide +kernel
  exact ⟨found, ((find?_nearest grounded_outpost w (by decide +kernel)).2 _ found).2⟩

/-- From a relative start nothing above the working directory is found. -/
theorem find?_relative_stops :
    let start : Path := ⟨"."⟩
    ((find? start : StateM FileTree _).run outpost).1 = none ∧
      [.name "a"] <+: ((pathOf outpost.workingPlace).join start).trail ∧
        outpost.HasManifest [.name "a"] := by
  intro start
  have steps : ((pathOf outpost.workingPlace).join start).trail = [.name "a", .name "b"] := by
    decide +kernel
  refine ⟨by decide +kernel, by simp [steps], ["a"], "", ?_, ?_, ?_⟩ <;> decide +kernel

end Manifest

end NativeBuild
