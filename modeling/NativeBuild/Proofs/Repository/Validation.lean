import NativeBuild.Proofs.Graph.Cycle

namespace NativeBuild.Repository

open Relation

variable {r : Repository}

/-- Does a component with the first identifier have a variant with a dependency that finds the
second one? -/
def DependsOn (r : Repository) (a b : ComponentId) : Prop :=
  ∃ c ∈ r.components, c.id = a ∧ ∃ v ∈ c.variants, ∃ d ∈ v.dependencies,
    ∃ target, r.find? d = some target ∧ target.id = b

def Cyclic (r : Repository) (id : ComponentId) : Prop :=
  TransGen r.DependsOn id id

theorem position?_id {id : ComponentId} {i : Fin r.components.length}
    (h : r.position? id = some i) : (r.components.get i).id = id := by
  simpa using List.find?_some h

theorem exists_position? {c : Component} (h : c ∈ r.components) :
    ∃ i, r.position? c.id = some i := by
  obtain ⟨i, hi, rfl⟩ := List.getElem_of_mem h
  apply Option.isSome_iff_exists.1
  rw [position?, List.find?_isSome]
  exact ⟨⟨i, hi⟩, by simp [List.mem_finRange], by simp⟩

theorem mem_edgesOf {c : Component} {i j : Fin r.components.length} :
    (i, j) ∈ r.edgesOf c ↔ ∃ v ∈ c.variants, ∃ d ∈ v.dependencies, ∃ target,
      r.find? d = some target ∧ r.position? c.id = some i ∧ r.position? target.id = some j := by
  simp only [edgesOf, List.mem_filterMap, List.mem_flatMap, Option.bind_eq_bind,
    Option.bind_eq_some_iff, Option.pure_def, Option.some.injEq, Prod.mk.injEq]
  constructor
  · rintro ⟨d, ⟨v, hv, hd⟩, target, ht, i, hi, j, hj, rfl, rfl⟩
    exact ⟨v, hv, d, hd, target, ht, hi, hj⟩
  · rintro ⟨v, hv, d, hd, target, ht, hi, hj⟩
    exact ⟨d, ⟨v, hv, hd⟩, target, ht, i, hi, j, hj, rfl, rfl⟩

theorem edge_connect {n : Nat} {g : Graph n} {a b v w : Fin n} :
    (g.connect a b).Edge v w ↔ (v, w) = (a, b) ∨ g.Edge v w := by
  unfold Graph.connect Graph.Edge
  split <;> rename_i h
  · constructor
    · exact .inr
    · rintro (e | e)
      · exact e ▸ h
      · exact e
  · exact List.mem_cons

theorem edge_foldl_connect {n : Nat} {edges : List (Fin n × Fin n)} {g : Graph n} {v w : Fin n} :
    (edges.foldl (fun g e => g.connect e.1 e.2) g).Edge v w ↔ (v, w) ∈ edges ∨ g.Edge v w := by
  induction edges generalizing g with
  | nil => simp
  | cons e edges ih => rw [List.foldl_cons, ih, edge_connect, List.mem_cons, or_left_comm, or_assoc]

theorem graph_edge {i j : Fin r.components.length} : r.graph.Edge i j ↔
    ∃ a b, r.DependsOn a b ∧ r.position? a = some i ∧ r.position? b = some j := by
  have none_yet : ¬Graph.Edge ⟨[]⟩ i j := List.not_mem_nil
  rw [graph, edge_foldl_connect, or_iff_left none_yet, List.mem_flatMap]
  constructor
  · rintro ⟨c, hc, he⟩
    obtain ⟨v, hv, d, hd, target, ht, hi, hj⟩ := mem_edgesOf.1 he
    exact ⟨c.id, target.id, ⟨c, hc, rfl, v, hv, d, hd, target, ht, rfl⟩, hi, hj⟩
  · rintro ⟨_, _, ⟨c, hc, rfl, v, hv, d, hd, target, ht, rfl⟩, hi, hj⟩
    exact ⟨c, hc, mem_edgesOf.2 ⟨v, hv, d, hd, target, ht, hi, hj⟩⟩

theorem dependsOn_of_path {i j : Fin r.components.length} (h : TransGen r.graph.Edge i j) :
    TransGen r.DependsOn (r.components.get i).id (r.components.get j).id := by
  refine h.lift (fun i : Fin r.components.length => (r.components.get i).id) fun i j he => ?_
  obtain ⟨a, b, hab, hi, hj⟩ := graph_edge.1 he
  change r.DependsOn (r.components.get i).id (r.components.get j).id
  rw [position?_id hi, position?_id hj]
  exact hab

theorem DependsOn.edge {a b : ComponentId} (h : r.DependsOn a b) :
    ∃ i j, r.position? a = some i ∧ r.position? b = some j ∧ r.graph.Edge i j := by
  obtain ⟨c, hc, ha, v, hv, d, hd, target, ht, hb⟩ := id h
  obtain ⟨i, hi⟩ := exists_position? hc
  obtain ⟨j, hj⟩ := exists_position? (List.mem_of_find?_eq_some ht)
  rw [ha] at hi
  rw [hb] at hj
  exact ⟨i, j, hi, hj, graph_edge.2 ⟨a, b, h, hi, hj⟩⟩

theorem path_of_dependsOn {a b : ComponentId} (h : TransGen r.DependsOn a b) :
    ∃ i j, r.position? a = some i ∧ r.position? b = some j ∧ TransGen r.graph.Edge i j := by
  induction h with
  | single h =>
    obtain ⟨i, j, hi, hj, he⟩ := h.edge
    exact ⟨i, j, hi, hj, .single he⟩
  | tail _ h ih =>
    obtain ⟨i, j, hi, hj, hp⟩ := ih
    obtain ⟨j', k, hj', hk, he⟩ := h.edge
    rw [hj] at hj'
    cases hj'
    exact ⟨i, k, hi, hk, hp.tail he⟩

theorem graph_onCycle_iff : (∃ i, r.graph.OnCycle i) ↔ ∃ id, r.Cyclic id := by
  constructor
  · rintro ⟨i, hi⟩
    exact ⟨_, dependsOn_of_path hi⟩
  · rintro ⟨id, hid⟩
    obtain ⟨i, j, hi, hj, hp⟩ := path_of_dependsOn hid
    rw [hi] at hj
    cases hj
    exact ⟨i, hp⟩

theorem validate_eq_ok_iff : r.validate = .ok () ↔ ∀ id, ¬r.Cyclic id := by
  unfold validate
  split <;> rename_i hv
  · obtain ⟨id, hid⟩ := graph_onCycle_iff.1 ⟨_, Graph.cycleNode?_some hv⟩
    simpa using ⟨id, hid⟩
  · refine iff_of_true rfl fun id hid => ?_
    obtain ⟨i, hi⟩ := graph_onCycle_iff.2 ⟨id, hid⟩
    exact Graph.cycleNode?_none hv i hi

/-- A repository is refused exactly when an identifier depends on itself, and the failure names one
that does. -/
theorem validate_refuses_cycles (r : Repository) :
    ((∃ e, r.validate = .error e) ↔ ∃ id, r.Cyclic id) ∧
      ∀ e, r.validate = .error e → ∃ id, r.Cyclic id ∧ e = .dependencyCycle id.displayName := by
  have named : ∀ e, r.validate = .error e →
      ∃ id, r.Cyclic id ∧ e = .dependencyCycle id.displayName := by
    intro e h
    unfold validate at h
    split at h <;> rename_i hv
    · cases h
      exact ⟨_, dependsOn_of_path (Graph.cycleNode?_some hv), rfl⟩
    · cases h
  refine ⟨⟨?_, ?_⟩, named⟩
  · rintro ⟨e, h⟩
    obtain ⟨id, hid, -⟩ := named e h
    exact ⟨id, hid⟩
  · intro h
    obtain ⟨i, hi⟩ := graph_onCycle_iff.2 h
    unfold validate
    split <;> rename_i hv
    · exact ⟨_, rfl⟩
    · exact absurd hi (Graph.cycleNode?_none hv i)

end NativeBuild.Repository
