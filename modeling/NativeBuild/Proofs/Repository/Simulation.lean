import NativeBuild.Proofs.Repository.Search

namespace NativeBuild.Repository

open Relation

/-- States of the second search correspond to states of the first by `same`, and failures by `like`.
-/
structure Simulation (r : Repository) (channel : Channel) (r' : Repository) (channel' : Channel)
    (same : List Dependency × List Node → List Dependency × List Node → Prop)
    (like : ResolutionFailure → ResolutionFailure → Prop) : Prop where
  move {s s' t} : same s s' → r.Move channel s t →
    ∃ t', ReflTransGen (r'.Move channel') s' t' ∧ same t t'
  stops {s s' e} : same s s' → r.Stops channel s e → ∃ e', r'.Stops channel' s' e' ∧ like e e'
  done {nodes s'} : same ([], nodes) s' → s'.1 = []

namespace Simulation

variable {r r' : Repository} {channel channel' : Channel}
variable {same : List Dependency × List Node → List Dependency × List Node → Prop}
variable {like : ResolutionFailure → ResolutionFailure → Prop}
variable {s s' t : List Dependency × List Node}

theorem moves (h : Simulation r channel r' channel' same like) (hs : same s s')
    (m : ReflTransGen (r.Move channel) s t) :
    ∃ t', ReflTransGen (r'.Move channel') s' t' ∧ same t t' := by
  induction m with
  | refl => exact ⟨s', .refl, hs⟩
  | tail _ m ih =>
    obtain ⟨mid, before, hm⟩ := ih
    obtain ⟨t', after, ht⟩ := h.move hm m
    exact ⟨t', before.trans after, ht⟩

theorem search_ok (h : Simulation r channel r' channel' same like) (hs : same s s')
    {nodes : List Node} (ho : r.search channel s.1 s.2 = .ok nodes) :
    ∃ nodes', r'.search channel' s'.1 s'.2 = .ok nodes' ∧ same ([], nodes) ([], nodes') := by
  obtain ⟨⟨pending, nodes'⟩, moves, ht⟩ := h.moves hs (moves_of_search_ok ho)
  obtain rfl : pending = [] := h.done ht
  exact ⟨nodes', (search_moves moves).trans search_nil, ht⟩

theorem search_error (h : Simulation r channel r' channel' same like) (hs : same s s')
    {e : ResolutionFailure} (he : r.search channel s.1 s.2 = .error e) :
    ∃ e', r'.search channel' s'.1 s'.2 = .error e' ∧ like e e' := by
  obtain ⟨t, before, stops⟩ := moves_of_search_error he
  obtain ⟨t', moves, ht⟩ := h.moves hs before
  obtain ⟨e', stops', hl⟩ := h.stops ht stops
  exact ⟨e', (search_moves moves).trans (search_stops stops'), hl⟩

end Simulation

end NativeBuild.Repository
