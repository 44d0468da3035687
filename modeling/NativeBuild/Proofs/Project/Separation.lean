import Mathlib.Data.List.Nodup
import Mathlib.Data.List.Pairwise
import NativeBuild.Proofs.Path.Trail
import NativeBuild.Proofs.Project.Wiring

namespace NativeBuild

namespace Descriptor

/-- Two binaries have different places for their objects, and different ones for their module maps.
-/
def Apart (a b : Descriptor) : Prop :=
  a.objectsDirectory.steps ≠ b.objectsDirectory.steps ∧
    a.moduleMapsDirectory.steps ≠ b.moduleMapsDirectory.steps

theorem of_apart_iff {a b : BinaryIdentity} (ha : Path.isAbsolute ⟨a.name⟩ = false)
    (hb : Path.isAbsolute ⟨b.name⟩ = false) (build : Path) (implementation : DependencySet)
    (i j : Nat) : (Descriptor.of build implementation i a).Apart (.of build implementation j b) ↔
      Path.trail ⟨a.name⟩ ≠ Path.trail ⟨b.name⟩ := by
  have below {place : String} (h : place ≠ "") :
      ((build.child place).child a.name).steps = ((build.child place).child b.name).steps ↔
        Path.trail ⟨a.name⟩ = Path.trail ⟨b.name⟩ := by
    have directory := Path.text_child_ne h build
    rw [Path.steps_child directory ha, Path.steps_child directory hb, List.append_right_inj]
  simp only [Apart, Descriptor.of, ne_eq, below (by decide : "obj" ≠ ""),
    below (by decide : "module-maps" ≠ ""), and_self]

end Descriptor

instance : Std.Symm BinaryIdentity.Compatible where
  symm _ _ h word := ⟨(h word.symm).1.symm, (h word.symm).2.symm⟩

namespace Project

variable {cwd root : Path} {m : Manifest} {p : Project}

theorem compatible_of_wireAt (h : wireAt m root = .ok p) :
    m.binaryIdentities.Pairwise BinaryIdentity.Compatible := by
  rcases BinaryIdentity.pairwise_or_firstClash m.binaryIdentities with agree | ⟨b, clash⟩
  · exact agree
  · by_cases named : m.project.NamesModule
    · rcases Dependency.parses_or_firstUnparsed m.implementation with parses | ⟨s, first⟩
      · cases h.symm.trans (wireAt_clash named parses clash)
      · obtain ⟨reason, e⟩ := wireAt_unparsed named root first
        cases h.symm.trans e
    · obtain ⟨name, reason, e⟩ := wireAt_unnamed named
      cases h.symm.trans e

theorem identities_of_wireAt (h : wireAt m root = .ok p) :
    p.binaries.map (·.identity) = m.binaryIdentities := by
  rw [(wireAt_eq_ok h).2.2, Manifest.identities_descriptors]

theorem mem_binaryIdentities (h : wireAt m root = .ok p) {b : Descriptor} (hb : b ∈ p.binaries) :
    b.identity ∈ m.binaryIdentities := by
  rw [← identities_of_wireAt h]
  exact List.mem_map_of_mem hb

theorem positions_ascending (h : wireAt m root = .ok p) :
    p.binaries.Pairwise fun a b => a.position < b.position := by
  have positions : p.binaries.map (·.position) = List.range' 0 m.binaryIdentities.length := by
    rw [(wireAt_eq_ok h).2.2, Manifest.descriptors, List.map_map]
    exact List.zipIdx_map_snd 0 m.binaryIdentities
  rw [← List.pairwise_map (f := Descriptor.position), positions]
  exact List.pairwise_lt_range'

theorem eq_of_position (h : wireAt m root = .ok p) {a b : Descriptor} (ha : a ∈ p.binaries)
    (hb : b ∈ p.binaries) (e : a.position = b.position) : a = b := by
  have positions : (p.binaries.map (·.position)).Nodup := by
    rw [List.nodup_iff_pairwise_ne, List.pairwise_map]
    exact (positions_ascending h).imp Nat.ne_of_lt
  exact List.inj_on_of_nodup_map positions ha hb e

theorem channels_eq_of_capitalize (h : wireAt m root = .ok p) {a b : Descriptor}
    (ha : a ∈ p.binaries) (hb : b ∈ p.binaries) (word : capitalize a.name = capitalize b.name) :
    a.channels = b.channels := by
  have compatible : a.identity.Compatible b.identity :=
    (compatible_of_wireAt h).forall_of_forall (fun _ _ _ => ⟨rfl, rfl⟩) (mem_binaryIdentities h ha)
      (mem_binaryIdentities h hb)
  rw [(wireAt_eq_ok h).2.2] at ha hb
  rw [Manifest.channels_of_mem_descriptors a ha, Manifest.channels_of_mem_descriptors b hb]
  have channel (purpose : Purpose) : Channel.ofBinary purpose a.identity p.implementation =
      .ofBinary purpose b.identity p.implementation :=
    Channel.ofBinary_eq_of_name compatible (congrArg (purpose.stem ++ ·) word)
  rw [BinaryChannels.of, BinaryChannels.of, channel, channel, channel]

theorem exists_binary? (h : wireAt m root = .ok p) {b : Descriptor} (hb : b ∈ p.binaries) :
    ∃ a ∈ p.binaries, p.binary? b.name = some a ∧ a.name = b.name ∧
      ∀ c ∈ p.binaries, c.name = b.name → a.position ≤ c.position := by
  cases ha : p.binary? b.name with
  | none =>
    have other := List.find?_eq_none.1 ha b hb
    simp at other
  | some a =>
    obtain ⟨hn, before, after, e, hbefore⟩ := List.find?_eq_some_iff_append.1 ha
    have ascending := positions_ascending h
    rw [e, List.pairwise_append, List.pairwise_cons] at ascending
    refine ⟨a, List.mem_of_find?_eq_some ha, rfl, by simpa using hn, fun c hc name => ?_⟩
    rw [e, List.mem_append, List.mem_cons] at hc
    rcases hc with hc | rfl | hc
    · simpa [name] using hbefore c hc
    · exact Nat.le_refl _
    · exact Nat.le_of_lt (ascending.2.1.1 c hc)

theorem pairwise_apart_iff (relative : ∀ b ∈ m.binaryIdentities, Path.isAbsolute ⟨b.name⟩ = false)
    (h : wireAt m root = .ok p) : p.binaries.Pairwise Descriptor.Apart ↔
      (p.binaries.map fun b => Path.trail ⟨b.name⟩).Nodup := by
  rw [List.nodup_iff_pairwise_ne, List.pairwise_map]
  apply List.Pairwise.iff_of_mem
  intro a b ha hb
  have below := Descriptor.of_apart_iff (relative _ (mem_binaryIdentities h ha))
    (relative _ (mem_binaryIdentities h hb))
  rw [(wireAt_eq_ok h).2.2] at ha hb
  obtain ⟨i, hi⟩ := Manifest.mem_descriptors ha
  obtain ⟨j, hj⟩ := Manifest.mem_descriptors hb
  rw [hi, hj]
  exact below _ _ i j

/-- Under the name of a binary one finds the first binary that has it, with the same channels. If no
name is an absolute path, each binary is found by its name and has places of its own exactly when
the names differ by more than idle segments. -/
theorem wire_apart_iff (h : wire cwd m root = .ok p) :
    (∀ b ∈ p.binaries, ∃ a, p.binary? b.name = some a ∧ a.channels = b.channels ∧
      (a = b ↔ ∀ c ∈ p.binaries, c.name = b.name → b.position ≤ c.position)) ∧
    ((∀ b ∈ m.binaryIdentities, Path.isAbsolute ⟨b.name⟩ = false) →
      ((∀ b ∈ p.binaries, p.binary? b.name = some b) ∧ p.binaries.Pairwise Descriptor.Apart ↔
        (m.binaryIdentities.map fun b => Path.trail ⟨b.name⟩).Nodup)) := by
  obtain ⟨place, -, h⟩ := bind_eq_ok.1 h
  constructor
  · intro b hb
    obtain ⟨a, ha, found, name, first⟩ := exists_binary? h hb
    have word : capitalize a.name = capitalize b.name := by rw [name]
    refine ⟨a, found, channels_eq_of_capitalize h ha hb word, ?_, fun least => ?_⟩
    · rintro rfl
      exact first
    · exact eq_of_position h ha hb (Nat.le_antisymm (first b hb rfl) (least a ha name))
  · intro relative
    rw [pairwise_apart_iff relative h, ← identities_of_wireAt h, List.map_map]
    refine ⟨And.right, fun distinct => ⟨fun b hb => ?_, distinct⟩⟩
    -- The name finds a binary of that name, and there is only one.
    obtain ⟨a, ha, found, name, -⟩ := exists_binary? h hb
    rw [found, List.inj_on_of_nodup_map distinct ha hb]
    exact congrArg (fun n => Path.trail ⟨n⟩) name

theorem wire_apart_iff_spelled :
    let binaries : List BinaryIdentity :=
      [⟨"tool", true, false, false⟩, ⟨"Tool", true, false, true⟩, ⟨"./fast/tool", true, true, false⟩]
    ∃ p, wire ⟨"/"⟩ (withBinaries binaries) ⟨"proj"⟩ = .ok p ∧
      (∀ b ∈ p.binaries, p.binary? b.name = some b) ∧ p.binaries.Pairwise Descriptor.Apart := by
  intro binaries
  have accepted : (wire ⟨"/"⟩ (withBinaries binaries) ⟨"proj"⟩).isOk = true := by decide +kernel
  have relative : ∀ b ∈ binaries, Path.isAbsolute ⟨b.name⟩ = false := by decide +kernel
  have distinct : (binaries.map fun b => Path.trail ⟨b.name⟩).Nodup := by decide +kernel
  cases h : wire ⟨"/"⟩ (withBinaries binaries) ⟨"proj"⟩ with
  | error e => simp [h, Except.isOk, Except.toBool] at accepted
  | ok p => exact ⟨p, rfl, ((wire_apart_iff h).2 relative).2 distinct⟩

/-- Two binaries of one name of which one is testable are wired: the name finds the first one only,
and both have the same places for their outputs. -/
theorem wire_namesakes_collide :
    let tool : BinaryIdentity := ⟨"tool", true, false, false⟩
    let testable : BinaryIdentity := ⟨"tool", true, false, true⟩
    (wire ⟨"/"⟩ (withBinaries [tool, testable]) ⟨"proj"⟩).map (fun p => p.binaries.map fun b =>
        (b.identity, (p.binary? b.name).map (·.identity), b.objectsDirectory, b.moduleMapsDirectory)) =
      .ok [(tool, some tool, ⟨"/proj/build/obj/tool"⟩, ⟨"/proj/build/module-maps/tool"⟩),
        (testable, some tool, ⟨"/proj/build/obj/tool"⟩, ⟨"/proj/build/module-maps/tool"⟩)] := by
  decide +kernel

end Project

end NativeBuild
