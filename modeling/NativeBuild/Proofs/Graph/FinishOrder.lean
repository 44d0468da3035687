import Mathlib.Logic.Relation
import NativeBuild.Repository.Cycle

/-! The order in which a sweep finishes with the nodes of a graph. A node is open from its discovery
until it is finished, and everything above an open node on the stack can be reached from it. So a
node that finishes while the target of one of its edges is open can be reached from that target:
in the order of finishing, an edge from an earlier node to a later one always lies on a cycle. -/

namespace NativeBuild.Graph

open Relation

variable {n : Nat} {g : Graph n}

def Edge (g : Graph n) (v w : Fin n) : Prop :=
  (v, w) ∈ g.edges

theorem mem_successors {v w : Fin n} : w ∈ g.successors v ↔ g.Edge v w := by
  simp [successors, Edge]

theorem mem_predecessors {v w : Fin n} : w ∈ g.predecessors v ↔ g.Edge w v := by
  simp only [predecessors, List.mem_filterMap, Option.ite_none_right_eq_some, Option.some.injEq, Edge]
  constructor
  · rintro ⟨⟨a, b⟩, he, rfl, rfl⟩
    exact he
  · exact fun h => ⟨(w, v), h, rfl, rfl⟩

def atop (v : Fin n) (stack : List (Fin n)) : List (Fin n) :=
  stack.takeWhile fun w => decide (w ≠ v)

@[simp] theorem atop_cons_self (v : Fin n) (stack : List (Fin n)) : atop v (v :: stack) = [] := by
  simp [atop]

theorem atop_cons_of_ne {v w : Fin n} (h : w ≠ v) (stack : List (Fin n)) :
    atop v (w :: stack) = w :: atop v stack := by
  simp [atop, h]

theorem atop_append {v : Fin n} {above : List (Fin n)} (h : v ∉ above) (stack : List (Fin n)) :
    atop v (above ++ stack) = above ++ atop v stack := by
  apply List.takeWhile_append_of_pos
  intro w hw
  have : w ≠ v := fun e => h (e ▸ hw)
  simp [this]

structure Placed (g : Graph n) (stack discovered : List (Fin n)) (u : Fin n) : Prop where
  mem : u ∈ stack
  reaches : ∀ w ∈ atop u stack, ReflTransGen g.Edge u w
  edge : ∀ w, g.Edge u w → w ∈ discovered ∨ w ∈ atop u stack

namespace Placed

variable {u v : Fin n} {rest above discovered : List (Fin n)}

theorem pop (h : g.Placed (v :: rest) discovered u) (ne : v ≠ u) (hv : v ∈ discovered) :
    g.Placed rest discovered u where
  mem := (List.mem_cons.1 h.mem).resolve_left ne.symm
  reaches w hw := by
    apply h.reaches
    rw [atop_cons_of_ne ne]
    exact List.mem_cons_of_mem v hw
  edge w hw := by
    have he := h.edge w hw
    rw [atop_cons_of_ne ne, List.mem_cons] at he
    rcases he with hd | rfl | ha
    · exact .inl hd
    · exact .inl hv
    · exact .inr ha

theorem push (h : g.Placed (v :: rest) discovered u) (ne : v ≠ u) (hu : u ∉ above)
    (ha : ∀ w ∈ above, g.Edge v w) : g.Placed (above ++ v :: rest) (v :: discovered) u where
  mem := List.mem_append_right above h.mem
  reaches w hw := by
    rw [atop_append hu] at hw
    rcases List.mem_append.1 hw with hw | hw
    · have hv : ReflTransGen g.Edge u v := by
        apply h.reaches
        rw [atop_cons_of_ne ne]
        exact List.mem_cons_self
      exact hv.tail (ha w hw)
    · exact h.reaches w hw
  edge w hw := by
    rw [atop_append hu]
    rcases h.edge w hw with hd | ho
    · exact .inl (List.mem_cons_of_mem v hd)
    · exact .inr (List.mem_append_right above ho)

theorem top (hv : v ∉ above) (ha : ∀ w ∈ above, g.Edge v w)
    (he : ∀ w, g.Edge v w → w ∈ v :: discovered ∨ w ∈ above) :
    g.Placed (above ++ v :: rest) (v :: discovered) v where
  mem := List.mem_append_right above List.mem_cons_self
  reaches w hw := by
    rw [atop_append hv, atop_cons_self, List.append_nil] at hw
    exact .single (ha w hw)
  edge w hw := by
    rw [atop_append hv, atop_cons_self, List.append_nil]
    exact he w hw

end Placed

def Sweep.Open (s : Sweep n) (v : Fin n) : Prop :=
  v ∈ s.discovered ∧ v ∉ s.finished

/-- What a sweep keeps true. An edge out of a finished node leads to a finished node or to an open
one, and then it lies on a cycle; so does an edge to a node that is finished later. -/
structure Sweep.Valid (g : Graph n) (stack : List (Fin n)) (s : Sweep n) : Prop where
  nodup : s.finished.Nodup
  finished_discovered : ∀ v ∈ s.finished, v ∈ s.discovered
  loopless : ∀ v ∈ s.discovered, ¬g.Edge v v
  placed : ∀ v, s.Open v → g.Placed stack s.discovered v
  settled : ∀ v ∈ s.finished, ∀ w, g.Edge v w → w ∈ s.finished ∨ s.Open w ∧ ReflTransGen g.Edge w v
  ordered : s.finished.Pairwise fun later earlier =>
    g.Edge earlier later → ReflTransGen g.Edge later earlier

namespace Sweep.Valid

variable {v : Fin n} {rest above : List (Fin n)} {s : Sweep n}

theorem pop (h : s.Valid g (v :: rest)) (hv : v ∈ s.finished) : s.Valid g rest := by
  refine { h with placed := fun u hu => ?_ }
  have ne : v ≠ u := by
    rintro rfl
    exact hu.2 hv
  exact (h.placed u hu).pop ne (h.finished_discovered v hv)

theorem finish (h : s.Valid g (v :: rest)) (hv : s.Open v) :
    Sweep.Valid g rest ⟨s.discovered, v :: s.finished⟩ := by
  have open_iff : ∀ {u}, Sweep.Open ⟨s.discovered, v :: s.finished⟩ u ↔ s.Open u ∧ v ≠ u := by
    intro u
    simp only [Sweep.Open, List.mem_cons, not_or, ne_comm (a := v)]
    exact ⟨fun ⟨hd, ne, hf⟩ => ⟨⟨hd, hf⟩, ne⟩, fun ⟨⟨hd, hf⟩, ne⟩ => ⟨hd, ne, hf⟩⟩
  have settle : ∀ {u w}, s.Open w → ReflTransGen g.Edge w u → w ∈ v :: s.finished ∨
      Sweep.Open ⟨s.discovered, v :: s.finished⟩ w ∧ ReflTransGen g.Edge w u := by
    intro u w hw hr
    by_cases e : v = w
    · exact .inl (e ▸ List.mem_cons_self)
    · exact .inr ⟨open_iff.2 ⟨hw, e⟩, hr⟩
  constructor
  case nodup => exact List.nodup_cons.2 ⟨hv.2, h.nodup⟩
  case finished_discovered => exact List.forall_mem_cons.2 ⟨hv.1, h.finished_discovered⟩
  case loopless => exact h.loopless
  case placed =>
    intro u hu
    obtain ⟨hu, ne⟩ := open_iff.1 hu
    exact (h.placed u hu).pop ne hv.1
  case settled =>
    refine List.forall_mem_cons.2 ⟨fun w hw => ?_, fun u hu w hw => ?_⟩
    · have ne : v ≠ w := by
        rintro rfl
        exact h.loopless v hv.1 hw
      have hd : w ∈ s.discovered := by simpa using (h.placed v hv).edge w hw
      by_cases hf : w ∈ s.finished
      · exact .inl (List.mem_cons_of_mem v hf)
      -- An open successor lies further down the stack, with `v` atop it.
      · refine settle ⟨hd, hf⟩ ((h.placed w ⟨hd, hf⟩).reaches v ?_)
        rw [atop_cons_of_ne ne]
        exact List.mem_cons_self
    · rcases h.settled u hu w hw with hf | ⟨ho, hr⟩
      · exact .inl (List.mem_cons_of_mem v hf)
      · exact settle ho hr
  case ordered =>
    refine List.pairwise_cons.2 ⟨fun u hu hw => ?_, h.ordered⟩
    -- `v` was open when `u` was finished, and is finished only now.
    rcases h.settled u hu v hw with hf | ⟨-, hr⟩
    · exact absurd hf hv.2
    · exact hr

theorem discover (h : s.Valid g (v :: rest)) (hd : v ∉ s.discovered) (hl : ¬g.Edge v v)
    (ha : ∀ w, w ∈ above ↔ g.Edge v w ∧ w ∉ v :: s.discovered) :
    Sweep.Valid g (above ++ v :: rest) ⟨v :: s.discovered, s.finished⟩ := by
  have new : ∀ u ∈ v :: s.discovered, u ∉ above := fun u hu e => ((ha u).1 e).2 hu
  have step : ∀ w ∈ above, g.Edge v w := fun w hw => ((ha w).1 hw).1
  constructor
  case nodup => exact h.nodup
  case finished_discovered => exact fun u hu => List.mem_cons_of_mem v (h.finished_discovered u hu)
  case loopless => exact List.forall_mem_cons.2 ⟨hl, h.loopless⟩
  case placed =>
    rintro u ⟨hu, hf⟩
    -- What `v` leads to lies above it now; the others stand as before.
    rcases List.mem_cons.1 hu with rfl | hu'
    · refine .top (new u hu) step fun w hw => ?_
      by_cases hwd : w ∈ u :: s.discovered
      · exact .inl hwd
      · exact .inr ((ha w).2 ⟨hw, hwd⟩)
    · have ne : v ≠ u := by
        rintro rfl
        exact hd hu'
      exact (h.placed u ⟨hu', hf⟩).push ne (new u hu) step
  case settled =>
    intro u hu w hw
    rcases h.settled u hu w hw with hf | ⟨ho, hr⟩
    · exact .inl hf
    · exact .inr ⟨⟨List.mem_cons_of_mem v ho.1, ho.2⟩, hr⟩
  case ordered => exact h.ordered

theorem restart (h : s.Valid g []) (v : Fin n) : s.Valid g [v] :=
  { h with placed := fun u hu => absurd (h.placed u hu).mem List.not_mem_nil }

end Sweep.Valid

theorem sweepStack_valid {stack : List (Fin n)} {s s' : Sweep n} (h : s.Valid g stack)
    (hs : g.sweepStack stack s = .ok s') : s'.Valid g [] := by
  fun_induction sweepStack g stack s with
  | case1 s =>
    cases hs
    exact h
  | case2 s v rest hd ih =>
    apply ih _ hs
    split <;> rename_i hf
    · exact h.pop hf
    · exact h.finish ⟨hd, hf⟩
  | case3 s v rest hd hl => cases hs
  | case4 s v rest hd hl above ih =>
    refine ih (h.discover hd (mt mem_successors.2 hl) fun w => ?_) hs
    rw [List.mem_reverse, List.mem_filter, mem_successors, decide_eq_true_iff]

theorem sweepStack_discovered {stack : List (Fin n)} {s s' : Sweep n}
    (hs : g.sweepStack stack s = .ok s') :
    (∀ v ∈ s.discovered, v ∈ s'.discovered) ∧ ∀ v ∈ stack, v ∈ s'.discovered := by
  fun_induction sweepStack g stack s with
  | case1 s =>
    cases hs
    simp
  | case2 s v rest hd ih =>
    obtain ⟨hold, hrest⟩ := ih hs
    have hold : ∀ u ∈ s.discovered, u ∈ s'.discovered := by
      intro u hu
      apply hold
      split <;> exact hu
    exact ⟨hold, List.forall_mem_cons.2 ⟨hold v hd, hrest⟩⟩
  | case3 s v rest hd hl => cases hs
  | case4 s v rest hd hl above ih =>
    obtain ⟨hold, hstack⟩ := ih hs
    exact ⟨fun u hu => hold u (List.mem_cons_of_mem v hu),
      fun u hu => hstack u (List.mem_append_right _ hu)⟩

theorem sweepStack_error {stack : List (Fin n)} {s : Sweep n} {v : Fin n}
    (hs : g.sweepStack stack s = .error v) : g.Edge v v := by
  fun_induction sweepStack g stack s with
  | case1 s => cases hs
  | case2 s v rest hd ih => exact ih hs
  | case3 s v rest hd hl =>
    cases hs
    exact mem_successors.1 hl
  | case4 s v rest hd hl above ih => exact ih hs

theorem sweep_nodes {l : List (Fin n)} {s s' : Sweep n} (h : s.Valid g [])
    (hs : l.foldlM (fun s v => g.sweepStack [v] s) s = .ok s') :
    s'.Valid g [] ∧ (∀ v ∈ s.discovered, v ∈ s'.discovered) ∧ ∀ v ∈ l, v ∈ s'.discovered := by
  induction l generalizing s with
  | nil =>
    cases hs
    exact ⟨h, by simp, by simp⟩
  | cons v l ih =>
    rw [List.foldlM_cons] at hs
    cases hv : g.sweepStack [v] s with
    | error w =>
      rw [hv] at hs
      cases hs
    | ok t =>
      rw [hv] at hs
      obtain ⟨hold, hstack⟩ := sweepStack_discovered hv
      obtain ⟨hvalid, hkeep, hl⟩ := ih (sweepStack_valid (h.restart v) hv) hs
      exact ⟨hvalid, fun u hu => hkeep u (hold u hu),
        List.forall_mem_cons.2 ⟨hkeep v (hstack v List.mem_cons_self), hl⟩⟩

theorem sweep_nodes_error {l : List (Fin n)} {s : Sweep n} {v : Fin n}
    (hs : l.foldlM (fun s v => g.sweepStack [v] s) s = .error v) : g.Edge v v := by
  induction l generalizing s with
  | nil => cases hs
  | cons w l ih =>
    rw [List.foldlM_cons] at hs
    cases hw : g.sweepStack [w] s with
    | error u =>
      rw [hw] at hs
      cases hs
      exact sweepStack_error hw
    | ok t =>
      rw [hw] at hs
      exact ih hs

theorem sweep_error {v : Fin n} (h : g.sweep = .error v) : g.Edge v v :=
  sweep_nodes_error h

/-- What a sweep over all nodes leaves behind, the node finished last in front. -/
structure FinishOrder (g : Graph n) (l : List (Fin n)) : Prop where
  nodup : l.Nodup
  mem : ∀ v, v ∈ l
  loopless : ∀ v, ¬g.Edge v v
  reaches : l.Pairwise fun later earlier =>
    g.Edge earlier later → ReflTransGen g.Edge later earlier

theorem sweep_ok {s : Sweep n} (h : g.sweep = .ok s) : g.FinishOrder s.finished := by
  have start : Sweep.Valid g [] ⟨[], []⟩ := by
    constructor <;> simp [Sweep.Open]
  obtain ⟨hs, -, hl⟩ := sweep_nodes start h
  have hd : ∀ v, v ∈ s.discovered := fun v => hl v (List.mem_finRange v)
  have hf : ∀ v, v ∈ s.finished := by
    intro v
    by_cases hv : v ∈ s.finished
    · exact hv
    · exact absurd (hs.placed v ⟨hd v, hv⟩).mem List.not_mem_nil
  exact ⟨hs.nodup, hf, fun v => hs.loopless v (hd v), hs.ordered⟩

end NativeBuild.Graph
