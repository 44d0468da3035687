import Mathlib
import NativeBuild.Proofs.Repository.Resolution

namespace NativeBuild.Repository

variable {r : Repository} {channel : Channel}

def Brings (r : Repository) (channel : Channel) (d d' : Dependency) : Prop :=
  ∃ c v, r.find? d = some c ∧ c.matching channel.attributes = [v] ∧ d' ∈ v.dependencies

structure Leads (r : Repository) (channel : Channel) (chain : List Dependency) (d : Dependency) :
    Prop where
  declared : ∃ first ∈ channel.dependencies, chain.head? = some first
  linked : chain.IsChain (r.Brings channel)
  last : chain.getLast? = some d

theorem Leads.declare {d : Dependency} (h : d ∈ channel.dependencies) : r.Leads channel [d] d where
  declared := ⟨d, h, rfl⟩
  linked := .singleton d
  last := rfl

theorem Leads.concat {chain : List Dependency} {d d' : Dependency} (h : r.Leads channel chain d)
    (hd : r.Brings channel d d') : r.Leads channel (chain ++ [d']) d' := by
  constructor
  case declared =>
    obtain ⟨first, hf, head⟩ := h.declared
    exact ⟨first, hf, by simp [head]⟩
  case linked =>
    refine h.linked.append (.singleton d') ?_
    simpa [h.last] using hd
  case last => simp

theorem Reachable.exists_leads {c : Component} (h : r.Reachable channel c) :
    ∃ chain d, r.Leads channel chain d ∧ r.find? d = some c := by
  induction h with
  | declared hd hf => exact ⟨_, _, .declare hd, hf⟩
  | through _ hv hd hf ih =>
    obtain ⟨chain, d, leads, hc⟩ := ih
    exact ⟨_, _, leads.concat ⟨_, _, hc, hv, hd⟩, hf⟩

theorem Required.exists_leads {d : Dependency} (h : r.Required channel d) :
    ∃ chain, r.Leads channel chain d := by
  cases h with
  | declared hd => exact ⟨_, .declare hd⟩
  | through hc hv hd =>
    obtain ⟨chain, d, leads, hf⟩ := hc.exists_leads
    exact ⟨_, leads.concat ⟨_, _, hf, hv, hd⟩⟩

def candidates (channel : Channel) (c : Component) : Nat :=
  c.variants.countP fun v => channel.attributes.isSatisfiedBy v.attributes

/-- What a failure says is so of a dependency: it selects no component of the repository, or no
variant of its component matches, or as many do as the failure counts, more than one. -/
inductive Blames (r : Repository) (channel : Channel) (d : Dependency) : ResolutionFailure → Prop
  | missing : (∀ c ∈ r.components, d.selects c.id = false) →
      Blames r channel d (.missingComponent d.text channel.name)
  | unmatched {c} : r.find? d = some c →
      (∀ v ∈ c.variants, channel.attributes.isSatisfiedBy v.attributes = false) →
      Blames r channel d
        (.noMatchingVariant c.id.displayName channel.attributes.text channel.name)
  | ambiguous {c} : r.find? d = some c → 2 ≤ candidates channel c →
      Blames r channel d
        (.ambiguousVariants c.id.displayName channel.attributes.text (candidates channel c))

theorem find?_eq_none_iff {d : Dependency} :
    r.find? d = none ↔ ∀ c ∈ r.components, d.selects c.id = false := by
  simp [find?]

theorem matching_eq_nil_iff {c : Component} : c.matching channel.attributes = [] ↔
    ∀ v ∈ c.variants, channel.attributes.isSatisfiedBy v.attributes = false := by
  simp [Component.matching]

theorem length_matching (c : Component) :
    (c.matching channel.attributes).length = candidates channel c :=
  List.countP_eq_length_filter.symm

theorem Fault.exists_blames {e : ResolutionFailure} (h : r.Fault channel e) :
    ∃ d, r.Required channel d ∧ r.Blames channel d e := by
  cases h with
  | missing hd hn => exact ⟨_, hd, .missing (find?_eq_none_iff.1 hn)⟩
  | unmatched hc hm =>
    obtain ⟨d, hd, hf⟩ := hc.exists_required
    exact ⟨d, hd, .unmatched hf (matching_eq_nil_iff.1 hm)⟩
  | ambiguous hc hm =>
    obtain ⟨d, hd, hf⟩ := hc.exists_required
    rw [length_matching] at hm ⊢
    exact ⟨d, hd, .ambiguous hf hm⟩

/-- If a channel cannot be resolved, a chain of dependencies leads from a declared one to one that
the failure tells the truth about. A cycle is no such failure. -/
theorem resolve_request_blames {e : ResolutionFailure} (h : r.resolve channel.request = .error e) :
    (∃ chain d, r.Leads channel chain d ∧ r.Blames channel d e) ∧
      ∀ component, e ≠ .dependencyCycle component := by
  obtain ⟨d, hd, blames⟩ := (nodes_fault (resolve_request_eq_error.1 h)).exists_blames
  obtain ⟨chain, leads⟩ := hd.exists_leads
  refine ⟨⟨chain, d, leads, blames⟩, ?_⟩
  rintro component rfl
  cases blames

def frayed : Repository :=
  let interface (name : String) (dependencies : List Dependency) : Variant :=
    ⟨name, Channel.requestedAttributes .compile .debug, [], dependencies⟩
  ⟨[⟨.module "org" "Json" "1.0", [interface "api" [.project ":core"]]⟩,
    ⟨.project ":core", [interface "api" [.module "" "Json" "", .project ":deep"]]⟩,
    ⟨.project ":deep", [interface "old" [], interface "new" [.project ":core"]]⟩]⟩

theorem resolve_request_blames_frayed :
    let compile := Channel.ofBinary .compile .debug ⟨"implementation", [.module "" "Json" ""], by decide⟩
    let e := ResolutionFailure.ambiguousVariants "project :deep" compile.attributes.text 2
    frayed.resolve compile.request = .error e ∧
      (∃ chain d, frayed.Leads compile chain d ∧ frayed.Blames compile d e) ∧
        ∀ component, e ≠ .dependencyCycle component := by
  intro compile e
  have h : frayed.resolve compile.request = .error e := by cbv
  exact ⟨h, resolve_request_blames h⟩

end NativeBuild.Repository
