import NativeBuild.Proofs.Except
import NativeBuild.Proofs.Repository.Exploration

namespace NativeBuild.Repository

variable {r : Repository} {channel : Channel}

theorem resolve_request_eq : r.resolve channel.request =
    (r.nodes channel).map (·.flatMap fun n => n.component.artifacts n.variant) := by
  simp only [resolve, Channel.request]
  cases r.nodes channel with
  | error e => rfl
  | ok nodes => rfl

theorem resolve_request_eq_ok {artifacts : List Artifact} :
    r.resolve channel.request = .ok artifacts ↔ ∃ nodes, r.nodes channel = .ok nodes ∧
      nodes.flatMap (fun n => n.component.artifacts n.variant) = artifacts := by
  rw [resolve_request_eq]
  cases r.nodes channel with
  | error e => simp [Except.map]
  | ok nodes => simp [Except.map]

theorem resolve_request_eq_error {e : ResolutionFailure} :
    r.resolve channel.request = .error e ↔ r.nodes channel = .error e := by
  rw [resolve_request_eq]
  cases r.nodes channel with
  | error e => simp [Except.map]
  | ok nodes => simp [Except.map]

theorem mem_of_reachable {c : Component} (h : r.Reachable channel c) : c ∈ r.components :=
  List.mem_of_find?_eq_some h.find?_id

theorem mem_of_viewOf {wanted : AttributeSet} {n : Node} {artifacts : List Artifact}
    (h : viewOf wanted n = .ok artifacts) {a : Artifact} (ha : a ∈ artifacts) :
    ∃ v ∈ n.component.variants, a ∈ n.component.artifacts v := by
  obtain ⟨chosen, hc, h⟩ := bind_eq_ok.1 h
  cases chosen with
  | none =>
    cases h
    cases ha
  | some v =>
    cases h
    refine ⟨v, ?_, ha⟩
    unfold choose at hc
    split at hc
    · cases hc
    · rename_i hv
      cases hc
      have member : v ∈ n.component.matching wanted := by simp [hv]
      exact List.mem_of_mem_filter member
    · cases hc

theorem mem_of_resolve {q : Request} {artifacts : List Artifact} (h : r.resolve q = .ok artifacts)
    {a : Artifact} (ha : a ∈ artifacts) :
    ∃ c ∈ r.components, ∃ v ∈ c.variants, a ∈ c.artifacts v := by
  obtain ⟨nodes, hn, h⟩ := bind_eq_ok.1 h
  have sound := (nodes_explored hn).sound
  have member {n : Node} (hm : n ∈ nodes) : n.component ∈ r.components :=
    mem_of_reachable (sound n hm).1
  split at h
  · cases h
    obtain ⟨n, hm, ha⟩ := List.mem_flatMap.1 ha
    have selected : n.variant ∈ n.component.matching q.channel.attributes := by
      simp [(sound n hm).2]
    exact ⟨n.component, member hm, n.variant, List.mem_of_mem_filter selected, ha⟩
  · obtain ⟨views, hv, h⟩ := bind_eq_ok.1 h
    cases h
    obtain ⟨view, hm, ha⟩ := List.mem_flatten.1 ha
    obtain ⟨n, hn, e⟩ := exists_of_mem_mapM hv hm
    obtain ⟨v, hv, ha⟩ := mem_of_viewOf e ha
    exact ⟨n.component, member hn, v, hv, ha⟩

/-- A channel resolves exactly when all it requires can be met, and its artifacts are then the files
of each reachable component's only matching variant, every component once. -/
theorem resolve_request_reachable (r : Repository) (channel : Channel) :
    ((∃ artifacts, r.resolve channel.request = .ok artifacts) ↔ r.Resolvable channel) ∧
      ∀ artifacts, r.resolve channel.request = .ok artifacts →
        ∃ nodes, r.Enumerates channel nodes ∧
          artifacts = nodes.flatMap fun n => n.variant.files.map fun f => ⟨n.component.id, f⟩ := by
  constructor
  · rw [← nodes_ok_iff]
    constructor
    · rintro ⟨artifacts, h⟩
      obtain ⟨nodes, hn, -⟩ := resolve_request_eq_ok.1 h
      exact ⟨nodes, hn⟩
    · rintro ⟨nodes, hn⟩
      exact ⟨_, resolve_request_eq_ok.2 ⟨nodes, hn, rfl⟩⟩
  · intro artifacts h
    obtain ⟨nodes, hn, rfl⟩ := resolve_request_eq_ok.1 h
    exact ⟨nodes, (nodes_explored hn).enumerates, rfl⟩

end NativeBuild.Repository
