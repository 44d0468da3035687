import NativeBuild.Proofs.Repository.Search

namespace NativeBuild.Repository

open Relation

variable {r : Repository} {channel : Channel}

theorem reached_iff {nodes : List Node} {id : ComponentId} :
    reached nodes id = true ↔ id ∈ nodes.map (·.component.id) := by
  simp [reached]

def Met (r : Repository) (nodes : List Node) (d : Dependency) : Prop :=
  ∃ c, r.find? d = some c ∧ reached nodes c.id = true

def Due (channel : Channel) (nodes : List Node) (d : Dependency) : Prop :=
  d ∈ channel.dependencies ∨ ∃ n ∈ nodes, d ∈ n.variant.dependencies

theorem Met.append {nodes : List Node} {d : Dependency} (h : r.Met nodes d) (n : Node) :
    r.Met (nodes ++ [n]) d := by
  obtain ⟨c, hd, hc⟩ := h
  exact ⟨c, hd, reached_mono (List.subset_append_left _ _) hc⟩

theorem Due.of_append {nodes : List Node} {n : Node} {d : Dependency}
    (h : Due channel (nodes ++ [n]) d) : Due channel nodes d ∨ d ∈ n.variant.dependencies := by
  rcases h with hd | ⟨m, hm, hd⟩
  · exact .inl (.inl hd)
  · rcases List.mem_append.1 hm with hm | hm
    · exact .inl (.inr ⟨m, hm, hd⟩)
    · rw [List.mem_singleton.1 hm] at hd
      exact .inr hd

/-- The state of a search: its nodes are sound, and whatever is due is met or still pending. -/
structure Explored (r : Repository) (channel : Channel) (pending : List Dependency)
    (nodes : List Node) : Prop where
  distinct : (nodes.map (·.component.id)).Nodup
  sound : ∀ n ∈ nodes,
    r.Reachable channel n.component ∧ n.component.matching channel.attributes = [n.variant]
  required : ∀ d ∈ pending, r.Required channel d
  covered : ∀ d, Due channel nodes d → d ∈ pending ∨ r.Met nodes d

namespace Explored

variable {d : Dependency} {rest pending : List Dependency} {nodes : List Node} {c : Component}

theorem start : r.Explored channel channel.dependencies [] where
  distinct := .nil
  sound := by simp
  required d hd := .declared hd
  covered d hd := .inl (hd.resolve_right (by simp))

theorem drop (h : r.Explored channel (d :: rest) nodes) (hd : r.find? d = some c)
    (hc : reached nodes c.id = true) : r.Explored channel rest nodes where
  distinct := h.distinct
  sound := h.sound
  required e he := h.required e (List.mem_cons_of_mem d he)
  covered e he := by
    rcases h.covered e he with hp | hm
    · rcases List.mem_cons.1 hp with rfl | hp
      · exact .inr ⟨c, hd, hc⟩
      · exact .inl hp
    · exact .inr hm

theorem take {v : Variant} (h : r.Explored channel (d :: rest) nodes) (hd : r.find? d = some c)
    (hc : ¬reached nodes c.id = true) (hv : c.matching channel.attributes = [v]) :
    r.Explored channel (v.dependencies ++ rest) (nodes ++ [⟨c, v⟩]) := by
  have hr : r.Reachable channel c := (h.required d List.mem_cons_self).reachable hd
  constructor
  case distinct =>
    rw [reached_iff] at hc
    simpa [List.nodup_append, h.distinct] using hc
  case sound =>
    intro n hn
    rcases List.mem_append.1 hn with hn | hn
    · exact h.sound n hn
    · rw [List.mem_singleton.1 hn]
      exact ⟨hr, hv⟩
  case required =>
    intro e he
    rcases List.mem_append.1 he with he | he
    · exact .through hr hv he
    · exact h.required e (List.mem_cons_of_mem d he)
  case covered =>
    intro e he
    rcases he.of_append with he | he
    -- What was pending is pending still, but for `d`, which is met now.
    · rcases h.covered e he with hp | hm
      · rcases List.mem_cons.1 hp with rfl | hp
        · exact .inr ⟨c, hd, reached_of_mem (n := ⟨c, v⟩) (by simp)⟩
        · exact .inl (List.mem_append_right _ hp)
      · exact .inr (hm.append _)
    · exact .inl (List.mem_append_left _ he)

theorem mem_of_reachable (h : r.Explored channel [] nodes) (hc : r.Reachable channel c) :
    ∃ n ∈ nodes, n.component = c := by
  -- What is due finds a component with the identifier of a node, hence the node's component.
  have met : ∀ {d c}, Due channel nodes d → r.find? d = some c → r.Reachable channel c →
      ∃ n ∈ nodes, n.component = c := by
    intro d c hd hf hc
    obtain ⟨c', hf', hc'⟩ := (h.covered d hd).resolve_left List.not_mem_nil
    obtain ⟨n, hn, hid⟩ := List.mem_map.1 (reached_iff.1 hc')
    rw [hf] at hf'
    cases hf'
    exact ⟨n, hn, (h.sound n hn).1.eq_of_id hc hid⟩
  induction hc with
  | declared hd hf => exact met (.inl hd) hf (.declared hd hf)
  | @through c v d c' hc hv hd hf ih =>
    obtain ⟨n, hn, rfl⟩ := ih
    have he : n.variant = v := by
      have := (h.sound n hn).2
      rw [hv] at this
      exact (List.singleton_inj.1 this).symm
    exact met (.inr ⟨n, hn, he ▸ hd⟩) hf (.through hc hv hd hf)

theorem enumerates (h : r.Explored channel [] nodes) : r.Enumerates channel nodes where
  distinct := h.distinct
  mem_iff n := by
    refine ⟨h.sound n, fun ⟨hc, hv⟩ => ?_⟩
    obtain ⟨m, hm, hid⟩ := h.mem_of_reachable hc
    have hvariant : m.variant = n.variant := by
      have hv' := (h.sound m hm).2
      rw [hid, hv] at hv'
      exact (List.singleton_inj.1 hv').symm
    have e : m = n := by
      cases m
      cases n
      congr
    exact e ▸ hm

theorem resolvable (h : r.Explored channel [] nodes) : r.Resolvable channel where
  found d hd := by
    have hdue : Due channel nodes d := by
      cases hd with
      | declared hd => exact .inl hd
      | @through c v _ hc hv hd =>
        exact .inr ⟨⟨c, v⟩, (h.enumerates.mem_iff _).2 ⟨hc, hv⟩, hd⟩
    obtain ⟨c, hc, -⟩ := (h.covered d hdue).resolve_left List.not_mem_nil
    exact ⟨c, hc⟩
  matched c hc := by
    obtain ⟨n, hn, rfl⟩ := h.mem_of_reachable hc
    exact ⟨n.variant, (h.sound n hn).2⟩

theorem move {s t : List Dependency × List Node} (h : r.Explored channel s.1 s.2)
    (hm : r.Move channel s t) : r.Explored channel t.1 t.2 := by
  cases hm with
  | drop hd hc => exact h.drop hd hc
  | take hd hc hv => exact h.take hd (by simp [hc]) hv

theorem moves {s t : List Dependency × List Node} (h : r.Explored channel s.1 s.2)
    (hm : ReflTransGen (r.Move channel) s t) : r.Explored channel t.1 t.2 := by
  induction hm with
  | refl => exact h
  | tail _ hm ih => exact ih.move hm

theorem fault {s : List Dependency × List Node} {e : ResolutionFailure}
    (h : r.Explored channel s.1 s.2) (he : r.Stops channel s e) : r.Fault channel e := by
  cases he with
  | missing hd => exact .missing (h.required _ List.mem_cons_self) hd
  | unmatched hd _ hm => exact .unmatched ((h.required _ List.mem_cons_self).reachable hd) hm
  | ambiguous hd _ hm => exact .ambiguous ((h.required _ List.mem_cons_self).reachable hd) hm

end Explored

theorem search_explored {pending : List Dependency} {nodes out : List Node}
    (h : r.Explored channel pending nodes) (ho : r.search channel pending nodes = .ok out) :
    r.Explored channel [] out :=
  Explored.moves (s := (pending, nodes)) h (moves_of_search_ok ho)

theorem search_fault {pending : List Dependency} {nodes : List Node} {e : ResolutionFailure}
    (h : r.Explored channel pending nodes) (he : r.search channel pending nodes = .error e) :
    r.Fault channel e := by
  obtain ⟨s, moves, stops⟩ := moves_of_search_error he
  exact (Explored.moves (s := (pending, nodes)) h moves).fault stops

theorem nodes_explored {nodes : List Node} (h : r.nodes channel = .ok nodes) :
    r.Explored channel [] nodes :=
  search_explored .start (nodes_eq_search ▸ h)

theorem nodes_fault {e : ResolutionFailure} (h : r.nodes channel = .error e) :
    r.Fault channel e :=
  search_fault .start (nodes_eq_search ▸ h)

theorem nodes_ok_iff : (∃ nodes, r.nodes channel = .ok nodes) ↔ r.Resolvable channel := by
  constructor
  · rintro ⟨nodes, h⟩
    exact (nodes_explored h).resolvable
  · intro h
    cases hn : r.nodes channel with
    | ok nodes => exact ⟨nodes, rfl⟩
    | error e => exact absurd h (nodes_fault hn).not_resolvable

end NativeBuild.Repository
