import NativeBuild.Repository

namespace NativeBuild.Repository

variable {r : Repository} {channel : Channel}

inductive Reachable (r : Repository) (channel : Channel) : Component → Prop
  | declared {d c} : d ∈ channel.dependencies → r.find? d = some c → Reachable r channel c
  | through {c v d c'} : Reachable r channel c → c.matching channel.attributes = [v] →
      d ∈ v.dependencies → r.find? d = some c' → Reachable r channel c'

/-- The dependencies that have to be met: those a channel declares, and those of the matching
variants of the components it reaches. -/
inductive Required (r : Repository) (channel : Channel) : Dependency → Prop
  | declared {d} : d ∈ channel.dependencies → Required r channel d
  | through {c v d} : Reachable r channel c → c.matching channel.attributes = [v] →
      d ∈ v.dependencies → Required r channel d

theorem Required.reachable {d : Dependency} {c : Component} (h : r.Required channel d)
    (hc : r.find? d = some c) : r.Reachable channel c := by
  cases h with
  | declared hd => exact .declared hd hc
  | through hr hv hd => exact .through hr hv hd hc

theorem Reachable.exists_required {c : Component} (h : r.Reachable channel c) :
    ∃ d, r.Required channel d ∧ r.find? d = some c := by
  cases h with
  | declared hd hc => exact ⟨_, .declared hd, hc⟩
  | through hr hv hd hc => exact ⟨_, .through hr hv hd, hc⟩

structure Resolvable (r : Repository) (channel : Channel) : Prop where
  found : ∀ d, r.Required channel d → ∃ c, r.find? d = some c
  matched : ∀ c, r.Reachable channel c → ∃ v, c.matching channel.attributes = [v]

/-- What a failure says of the dependency that has to be met and cannot be. -/
inductive Fault (r : Repository) (channel : Channel) : ResolutionFailure → Prop
  | missing {d} : r.Required channel d → r.find? d = none →
      Fault r channel (.missingComponent d.text channel.name)
  | unmatched {c} : r.Reachable channel c → c.matching channel.attributes = [] →
      Fault r channel (.noMatchingVariant c.id.displayName channel.attributes.text channel.name)
  | ambiguous {c} : r.Reachable channel c → 2 ≤ (c.matching channel.attributes).length →
      Fault r channel (.ambiguousVariants c.id.displayName channel.attributes.text
        (c.matching channel.attributes).length)

theorem Fault.not_resolvable {e : ResolutionFailure} (h : r.Fault channel e) :
    ¬r.Resolvable channel := by
  intro hr
  cases h with
  | missing hd hn =>
    obtain ⟨c, hc⟩ := hr.found _ hd
    rw [hn] at hc
    cases hc
  | unmatched hc hm =>
    obtain ⟨v, hv⟩ := hr.matched _ hc
    rw [hm] at hv
    cases hv
  | ambiguous hc hm =>
    obtain ⟨v, hv⟩ := hr.matched _ hc
    rw [hv] at hm
    exact absurd hm (by simp)

/-- A list of nodes that has each component a channel reaches, once, with its only matching
variant. -/
structure Enumerates (r : Repository) (channel : Channel) (nodes : List Node) : Prop where
  distinct : (nodes.map (·.component.id)).Nodup
  mem_iff : ∀ n, n ∈ nodes ↔
    r.Reachable channel n.component ∧ n.component.matching channel.attributes = [n.variant]

theorem selects_of_find? {d : Dependency} {c : Component} (h : r.find? d = some c) :
    d.selects c.id = true := by
  simpa using List.find?_some h

theorem find?_id {d : Dependency} {c : Component} (h : r.find? d = some c) :
    r.components.find? (·.id == c.id) = some c := by
  obtain ⟨hc, before, after, e, hb⟩ := List.find?_eq_some_iff_append.1 h
  refine List.find?_eq_some_iff_append.2 ⟨by simp, before, after, e, fun a ha => ?_⟩
  have hs := hb a ha
  simp only [Bool.not_eq_true', beq_eq_false_iff_ne]
  intro hid
  rw [hid, hc] at hs
  exact absurd hs (by simp)

theorem Reachable.find?_id {c : Component} (h : r.Reachable channel c) :
    r.components.find? (·.id == c.id) = some c := by
  obtain ⟨d, -, hc⟩ := h.exists_required
  exact Repository.find?_id hc

theorem Reachable.eq_of_id {c c' : Component} (h : r.Reachable channel c)
    (h' : r.Reachable channel c') (hid : c.id = c'.id) : c = c' := by
  have hc := h.find?_id
  rw [hid, h'.find?_id] at hc
  exact (Option.some.inj hc).symm

end NativeBuild.Repository
