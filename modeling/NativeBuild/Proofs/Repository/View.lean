import Mathlib
import NativeBuild.ModuleMap
import NativeBuild.Proofs.Attribute
import NativeBuild.Proofs.Repository.Resolution

namespace NativeBuild.Repository

variable {r : Repository} {channel : Channel} {view : AttributeSet}

theorem matching_merge {base : AttributeSet} (h : view.Agrees base) (c : Component) :
    c.matching (base.merge view) =
      (c.matching base).filter fun v => view.isSatisfiedBy v.attributes := by
  simp [Component.matching, List.filter_filter, AttributeSet.isSatisfiedBy_merge h, Bool.and_comm]

def kept (view : AttributeSet) (n : Node) : List Artifact :=
  if view.isSatisfiedBy n.variant.attributes then n.component.artifacts n.variant else []

theorem viewOf_eq {base : AttributeSet} (h : view.Agrees base) {n : Node}
    (hn : n.component.matching base = [n.variant]) :
    viewOf (base.merge view) n = .ok (kept view n) := by
  unfold viewOf choose kept
  rw [matching_merge h, hn]
  cases hv : view.isSatisfiedBy n.variant.attributes with
  | false => simp [hv]; rfl
  | true => simp [hv]; rfl

theorem mapM_viewOf {base : AttributeSet} (h : view.Agrees base) {nodes : List Node}
    (hn : ∀ n ∈ nodes, n.component.matching base = [n.variant]) :
    nodes.mapM (viewOf (base.merge view)) = .ok (nodes.map (kept view)) := by
  induction nodes with
  | nil => rfl
  | cons n nodes ih =>
    rw [List.mapM_cons, viewOf_eq h (hn n List.mem_cons_self),
      ih fun m hm => hn m (List.mem_cons_of_mem n hm)]
    rfl

theorem resolve_artifactView_eq (h : view.Agrees channel.attributes) :
    r.resolve (channel.artifactView view) =
      (r.nodes channel).map (·.flatMap (kept view)) := by
  simp only [resolve, Channel.artifactView, Request.selection]
  cases hn : r.nodes channel with
  | error e => rfl
  | ok nodes =>
    have hv : ∀ n ∈ nodes, n.component.matching channel.attributes = [n.variant] :=
      fun n hm => ((nodes_explored hn).sound n hm).2
    change (do return (← nodes.mapM (viewOf _)).flatten) = _
    rw [mapM_viewOf h hv]
    rfl

/-- Does the component of an identifier carry the attributes of a view in the variant that a channel
selects of it? -/
def carries (r : Repository) (channel : Channel) (view : AttributeSet) (id : ComponentId) : Bool :=
  (r.components.find? (·.id == id)).any fun c =>
    (c.matching channel.attributes).any fun v => view.isSatisfiedBy v.attributes

theorem carries_of_reachable {c : Component} {v : Variant} (hc : r.Reachable channel c)
    (hv : c.matching channel.attributes = [v]) :
    r.carries channel view c.id = view.isSatisfiedBy v.attributes := by
  simp [carries, hc.find?_id, hv]

theorem kept_eq_filter {n : Node} (hc : r.Reachable channel n.component)
    (hv : n.component.matching channel.attributes = [n.variant]) :
    kept view n = (n.component.artifacts n.variant).filter
      fun a => r.carries channel view a.producer := by
  have hp : ∀ a ∈ n.component.artifacts n.variant,
      r.carries channel view a.producer = view.isSatisfiedBy n.variant.attributes := by
    intro a ha
    obtain ⟨f, -, rfl⟩ := List.mem_map.1 ha
    exact carries_of_reachable hc hv
  rw [List.filter_congr hp, kept]
  cases view.isSatisfiedBy n.variant.attributes with
  | false => simp
  | true => simp

theorem moduleMapView_agrees (purpose : Purpose) (binary : BinaryIdentity) (base : DependencySet) :
    ModuleMap.view.Agrees (Channel.ofBinary purpose binary base).attributes := by
  intro name value value' hv hb
  by_cases hn : name = Attribute.requiresModuleMap.name
  · subst hn
    simp [Channel.ofBinary, Channel.new, Channel.requestedAttributes, AttributeSet.declare,
      Dict.get?_insert, Attribute.requiresModuleMap, Attribute.optimized, Attribute.debuggable,
      Attribute.usage] at hb
  · simp [ModuleMap.view, AttributeSet.declare, Dict.get?_insert, hn] at hv

/-- Narrowing a channel by attributes that agree with its own fails as the channel itself does, and
otherwise keeps, in order, the artifacts of the components whose selected variant carries them. The
mark of header variants agrees with every channel of a binary. -/
theorem resolve_narrowed :
    (∀ purpose binary base,
      ModuleMap.view.Agrees (Channel.ofBinary purpose binary base).attributes) ∧
    ∀ (r : Repository) (channel : Channel) (view : AttributeSet), view.Agrees channel.attributes →
      r.resolve (channel.artifactView view) =
          (r.resolve channel.request).map
            (List.filter fun a => r.carries channel view a.producer) ∧
        ∀ c v, r.Reachable channel c → c.matching channel.attributes = [v] →
          r.carries channel view c.id = view.isSatisfiedBy v.attributes := by
  refine ⟨moduleMapView_agrees, fun r channel view h => ⟨?_, fun c v => carries_of_reachable⟩⟩
  rw [resolve_artifactView_eq h, resolve_request_eq]
  cases hn : r.nodes channel with
  | error e => rfl
  | ok nodes =>
    have sound := (nodes_explored hn).sound
    simp only [Except.map, List.filter_flatMap]
    congr 1
    apply List.flatMap_congr
    intro n hm
    exact kept_eq_filter (sound n hm).1 (sound n hm).2

def entwined : Repository where
  components := [
    ⟨.module "org" "Json" "1.0", [⟨"headers",
      (Channel.requestedAttributes .compile .debug).merge ModuleMap.view, [⟨"/json.h"⟩],
      [.project ":core"]⟩]⟩,
    ⟨.project ":core", [⟨"interface", Channel.requestedAttributes .compile .debug,
      [⟨"/core.swiftmodule"⟩], [.module "" "Json" ""]⟩]⟩]

def entwinedCompile : Channel :=
  .ofBinary .compile .debug ⟨"implementation", [.module "" "Json" ""], by decide⟩

theorem resolve_narrowed_entwined :
    ModuleMap.view.Agrees entwinedCompile.attributes ∧
      entwined.resolve (entwinedCompile.artifactView ModuleMap.view) =
        .ok [⟨.module "org" "Json" "1.0", ⟨"/json.h"⟩⟩] := by
  have h : ModuleMap.view.Agrees entwinedCompile.attributes := resolve_narrowed.1 _ _ _
  refine ⟨h, ?_⟩
  rw [(resolve_narrowed.2 entwined entwinedCompile ModuleMap.view h).1]
  cbv

end NativeBuild.Repository
