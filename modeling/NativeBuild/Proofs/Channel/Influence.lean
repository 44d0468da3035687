import Mathlib
import NativeBuild.Proofs.Channel.Registry
import NativeBuild.Proofs.Except
import NativeBuild.Proofs.ModuleMap.Aggregation
import NativeBuild.Proofs.Repository.Simulation

namespace NativeBuild

/-- The failure as it is told of a channel with another name. -/
def ResolutionFailure.forChannel (name : String) : ResolutionFailure → ResolutionFailure
  | .missingComponent dependency _ => .missingComponent dependency name
  | .noMatchingVariant component requested _ => .noMatchingVariant component requested name
  | e => e

def BuildError.forChannel (name : String) : BuildError → BuildError
  | .resolution failure => .resolution (failure.forChannel name)
  | e => e

namespace Repository

variable {r : Repository} {channel channel' : Channel}

theorem simulation_of_attributes (h : channel.attributes = channel'.attributes) :
    Simulation r channel r channel' Eq fun e e' => e' = e.forChannel channel'.name where
  done := by
    rintro nodes _ rfl
    rfl
  move := by
    rintro s _ t rfl m
    refine ⟨t, .single ?_, rfl⟩
    cases m with
    | drop hd hc => exact .drop hd hc
    | take hd hc hv => exact .take hd hc (h ▸ hv)
  stops := by
    rintro s _ e rfl stops
    cases stops with
    | missing hd => exact ⟨_, .missing hd, rfl⟩
    | unmatched hd hc hm => exact ⟨_, .unmatched hd hc (h ▸ hm), by rw [← h]; rfl⟩
    | ambiguous hd hc hm => exact ⟨_, .ambiguous hd hc (h ▸ hm), by rw [← h]; rfl⟩

theorem viewOf_forChannel (name : String) {wanted : AttributeSet} {n : Node} {e : ResolutionFailure}
    (h : viewOf wanted n = .error e) : e.forChannel name = e := by
  rcases bind_eq_error.1 h with h | ⟨chosen, -, h⟩
  · unfold choose at h
    split at h
    · cases h
    · cases h
    · cases h
      rfl
  · cases chosen with
    | none => cases h
    | some v => cases h

section Alike

variable (attributes : channel.attributes = channel'.attributes)
variable (dependencies : channel.dependencies = channel'.dependencies)
include attributes dependencies

theorem nodes_forChannel :
    r.nodes channel' = (r.nodes channel).mapError (·.forChannel channel'.name) := by
  have sim := simulation_of_attributes (r := r) attributes
  rw [nodes_eq_search, nodes_eq_search, ← dependencies]
  cases hr : r.search channel channel.dependencies [] with
  | error e =>
    obtain ⟨_, he, rfl⟩ := sim.search_error (s := (channel.dependencies, [])) rfl hr
    exact he
  | ok nodes =>
    obtain ⟨_, hn, e⟩ := sim.search_ok (s := (channel.dependencies, [])) rfl hr
    cases e
    exact hn

theorem resolve_forChannel (view : Option AttributeSet) : r.resolve ⟨channel', view⟩ =
    (r.resolve ⟨channel, view⟩).mapError (·.forChannel channel'.name) := by
  rw [resolve, resolve, mapError_bind, nodes_forChannel attributes dependencies]
  congr 1
  funext nodes
  cases view with
  | none => rfl
  | some view =>
    have selection : Request.selection ⟨channel', some view⟩ =
        Request.selection ⟨channel, some view⟩ := by
      simp only [Request.selection, attributes]
    rw [selection]
    refine (mapError_eq_self fun e he => ?_).symm
    rcases bind_eq_error.1 he with he | ⟨parts, -, he⟩
    · obtain ⟨-, n, -, -, -, hn⟩ := mapM_eq_error_iff.1 he
      exact viewOf_forChannel channel'.name hn
    · cases he

end Alike

end Repository

namespace ModuleMap

theorem ofResolution_forChannel (name : String) (answer : Resolution) :
    ofResolution (answer.mapError (·.forChannel name)) =
      (ofResolution answer).mapError (·.forChannel name) := by
  cases answer with
  | error e => rfl
  | ok artifacts =>
    refine (mapError_eq_self fun e he => ?_).symm
    obtain ⟨a, -, rfl⟩ := aggregate_eq_error.1 he
    rfl

/-- Binaries with the same flags and dependencies get channels of their own that resolve alike for
each purpose, through a view or without one, but for the name of the channel in a failure; and so do
their module maps. Neither the name of a binary matters nor whether it is testable. -/
theorem resolved_by_flags (r : Repository) (base : DependencySet) {binary other : BinaryIdentity}
    (debuggable : binary.debuggable = other.debuggable)
    (optimized : binary.optimized = other.optimized) (purpose : Purpose) :
    let channel (b : BinaryIdentity) := (BinaryChannels.of b base).get purpose
    (∀ b, ∃ registry, (BinaryChannels.of b base).register.run.run .empty = (.ok (), registry) ∧
      registry.get? (channel b).name = some (channel b)) ∧
    (∀ view, r.resolve ⟨channel other, view⟩ =
      (r.resolve ⟨channel binary, view⟩).mapError (·.forChannel (channel other).name)) ∧
    ofResolution (r.resolve (request (channel other))) =
      (ofResolution (r.resolve (request (channel binary)))).mapError
        (·.forChannel (channel other).name) := by
  intro channel
  have ofBinary (b : BinaryIdentity) : channel b = .ofBinary purpose b base := by
    cases purpose <;> rfl
  have alike : ∀ view, r.resolve ⟨channel other, view⟩ =
      (r.resolve ⟨channel binary, view⟩).mapError (·.forChannel (channel other).name) := by
    refine Repository.resolve_forChannel ?_ ?_
    · simp [ofBinary, Channel.ofBinary, Channel.new, Channel.requestedAttributes, debuggable, optimized]
    · simp [ofBinary, Channel.ofBinary, Channel.new, Channel.dependencies]
  refine ⟨fun b => ?_, alike, ?_⟩
  · have start : Registry.Holds .empty (Channel.ofBinaries base []) := Registry.holds_empty
    obtain ⟨registry, registered, holds⟩ := start.register_binary (b := b) (by simp)
    refine ⟨registry, registered, (holds _ _).2 ⟨?_, rfl⟩⟩
    exact Channel.mem_ofBinaries.2 ⟨b, by simp, purpose, ofBinary b⟩
  · rw [request, Channel.artifactView, alike, ofResolution_forChannel]
    rfl

def headersOnly : Repository :=
  ⟨[⟨.module "org" "Json" "1.0", [⟨"headers",
    (Channel.requestedAttributes .compile .debug).merge view, [⟨"/json.h"⟩], []⟩]⟩]⟩

def needsJson : DependencySet :=
  ⟨"implementation", [.module "org" "Json" ""], by decide⟩

def unitTest : BinaryIdentity := ⟨"unitTest", true, false, true⟩

theorem resolved_by_flags_unitTest :
    let channels := BinaryChannels.of unitTest needsJson
    ofResolution (headersOnly.resolve (request channels.compile)) = .ok [⟨"Json", ["/json.h"]⟩] ∧
      headersOnly.resolve channels.link.request = .error (.noMatchingVariant "org:Json:1.0"
        channels.link.attributes.text "nativeLinkUnitTest") := by
  intro channels
  let own := BinaryChannels.of .debug needsJson
  have maps : ofResolution (headersOnly.resolve (request own.compile)) =
      .ok [⟨"Json", ["/json.h"]⟩] := by cbv
  have unmatched : headersOnly.resolve own.link.request = .error (.noMatchingVariant "org:Json:1.0"
      own.link.attributes.text "nativeLinkDebug") := by cbv
  have name : channels.link.name = "nativeLinkUnitTest" := by cbv
  have attributes : channels.link.attributes = own.link.attributes := rfl
  have compile : ofResolution (headersOnly.resolve (request channels.compile)) =
      (ofResolution (headersOnly.resolve (request own.compile))).mapError
        (·.forChannel channels.compile.name) :=
    (@resolved_by_flags headersOnly needsJson .debug unitTest rfl rfl .compile).2.2
  have link : headersOnly.resolve channels.link.request =
      (headersOnly.resolve own.link.request).mapError (·.forChannel channels.link.name) :=
    (@resolved_by_flags headersOnly needsJson .debug unitTest rfl rfl .link).2.1 none
  rw [compile, maps, link, unmatched, name, attributes]
  exact ⟨rfl, rfl⟩

end ModuleMap

end NativeBuild
