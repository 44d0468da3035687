import NativeBuild.Proofs.Graph.FinishOrder

namespace NativeBuild.Graph

open Relation

variable {n : Nat} {g : Graph n}

def OnCycle (g : Graph n) (v : Fin n) : Prop :=
  TransGen g.Edge v v

theorem gather_prefix (stack marks visited : List (Fin n)) :
    ∃ more, (g.gather stack marks visited).2 = visited ++ more := by
  fun_induction gather g stack marks visited with
  | case1 marks visited => exact ⟨[], by simp⟩
  | case2 marks visited v rest hv ih => exact ih
  | case3 marks visited v rest hv above ih =>
    obtain ⟨more, hm⟩ := ih
    exact ⟨v :: more, by rw [hm, List.append_assoc]; rfl⟩

theorem gather_one {v : Fin n} {marks : List (Fin n)} (hv : v ∉ marks) :
    ((∀ w, g.Edge w v → w ∈ v :: marks) ∧ g.gather [v] marks [] = (v :: marks, [v])) ∨
      ∃ w, g.Edge w v ∧ w ∉ v :: marks ∧
        ∃ marks' more, g.gather [v] marks [] = (marks', v :: w :: more) := by
  rw [gather, if_neg hv]
  dsimp only
  have mem_above : ∀ w, w ∈ ((g.predecessors v).filter fun w => decide (w ∉ v :: marks)).reverse ↔
      g.Edge w v ∧ w ∉ v :: marks := by
    intro w
    rw [List.mem_reverse, List.mem_filter, mem_predecessors, decide_eq_true_iff]
  generalize ((g.predecessors v).filter fun w => decide (w ∉ v :: marks)).reverse = above
    at mem_above ⊢
  -- If anything is left to follow from `v`, the next node is gathered right after it.
  cases above with
  | nil =>
    refine .inl ⟨fun w hw => ?_, by simp [gather]⟩
    by_cases hm : w ∈ v :: marks
    · exact hm
    · exact absurd ((mem_above w).2 ⟨hw, hm⟩) List.not_mem_nil
  | cons w above =>
    obtain ⟨hw, hm⟩ := (mem_above w).1 List.mem_cons_self
    refine .inr ⟨w, hw, hm, ?_⟩
    rw [List.cons_append, gather, if_neg hm]
    obtain ⟨more, h⟩ := gather_prefix (g := g)
      (((g.predecessors w).filter fun u => decide (u ∉ w :: v :: marks)).reverse ++ (above ++ []))
      (w :: v :: marks) ([] ++ [v] ++ [w])
    exact ⟨_, more, Prod.ext rfl h⟩

section Second

variable {v : Fin n} {marks l : List (Fin n)}

theorem secondGathered?_marked (hv : v ∈ marks) :
    g.secondGathered? marks (v :: l) = g.secondGathered? marks l := by
  simp [secondGathered?, gather, hv]

theorem secondGathered?_unmarked (hv : v ∉ marks) :
    ((∀ w, g.Edge w v → w ∈ v :: marks) ∧
        g.secondGathered? marks (v :: l) = g.secondGathered? (v :: marks) l) ∨
      ∃ w, g.Edge w v ∧ w ∉ v :: marks ∧ g.secondGathered? marks (v :: l) = some w := by
  rcases gather_one (g := g) hv with ⟨hw, h⟩ | ⟨w, hw, hm, marks', more, h⟩
  · exact .inl ⟨hw, by rw [secondGathered?, h]⟩
  · exact .inr ⟨w, hw, hm, by rw [secondGathered?, h]⟩

theorem secondGathered?_some {R : Fin n → Fin n → Prop} (hl : l.Pairwise R)
    (hm : ∀ v, v ∉ marks → v ∈ l) {w : Fin n} (h : g.secondGathered? marks l = some w) :
    ∃ v, R v w ∧ g.Edge w v := by
  induction l generalizing marks with
  | nil => cases h
  | cons v l ih =>
    obtain ⟨hv, hl⟩ := List.pairwise_cons.1 hl
    by_cases hvm : v ∈ marks
    · rw [secondGathered?_marked hvm] at h
      refine ih hl (fun u hu => (List.mem_cons.1 (hm u hu)).resolve_left ?_) h
      exact fun e => hu (e ▸ hvm)
    · rcases secondGathered?_unmarked (g := g) (l := l) hvm with ⟨-, e⟩ | ⟨u, hu, hum, e⟩
      · rw [e] at h
        refine ih hl (fun u hu => ?_) h
        rw [List.mem_cons, not_or] at hu
        exact (List.mem_cons.1 (hm u hu.2)).resolve_left hu.1
      · rw [e] at h
        cases h
        rw [List.mem_cons, not_or] at hum
        exact ⟨v, hv w ((List.mem_cons.1 (hm w hum.2)).resolve_left hum.1), hu⟩

theorem secondGathered?_none (hl : l.Nodup) (hm : ∀ v ∈ l, v ∉ marks)
    (h : g.secondGathered? marks l = none) : l.Pairwise fun v w => ¬g.Edge w v := by
  induction l generalizing marks with
  | nil => exact .nil
  | cons v l ih =>
    obtain ⟨hv, hl⟩ := List.nodup_cons.1 hl
    have fresh : ∀ w ∈ l, w ∉ v :: marks := by
      intro w hw
      rw [List.mem_cons, not_or]
      exact ⟨fun e => hv (e ▸ hw), hm w (List.mem_cons_of_mem v hw)⟩
    rcases secondGathered?_unmarked (g := g) (l := l) (hm v List.mem_cons_self) with
      ⟨hw, e⟩ | ⟨w, -, -, e⟩
    · rw [e] at h
      exact List.pairwise_cons.2 ⟨fun u hu he => fresh u hu (hw u he), ih hl fresh h⟩
    · rw [e] at h
      cases h

end Second

theorem cycleNode?_some {v : Fin n} (h : g.cycleNode? = some v) : g.OnCycle v := by
  unfold cycleNode? at h
  split at h <;> rename_i hs
  · cases h
    exact .single (sweep_error hs)
  · have order := sweep_ok hs
    obtain ⟨u, hr, he⟩ := secondGathered?_some order.reaches (fun w _ => order.mem w) h
    -- The edge from `v` to `u` closes the path from `u` back to `v`.
    exact .head' he (hr he)

theorem idxOf_lt_of_edge {l : List (Fin n)} (hl : l.Pairwise fun v w => ¬g.Edge w v)
    (hm : ∀ v, v ∈ l) (loopless : ∀ v, ¬g.Edge v v) {v w : Fin n} (h : g.Edge v w) :
    l.idxOf v < l.idxOf w := by
  have hv : l.idxOf v < l.length := List.idxOf_lt_length_iff.2 (hm v)
  have hw : l.idxOf w < l.length := List.idxOf_lt_length_iff.2 (hm w)
  rcases Nat.lt_trichotomy (l.idxOf v) (l.idxOf w) with hlt | heq | hgt
  · exact hlt
  · have e : v = w := by rw [← List.getElem_idxOf hv, ← List.getElem_idxOf hw]; simp [heq]
    exact absurd h (e ▸ loopless v)
  · have hn := List.pairwise_iff_getElem.1 hl _ _ hw hv hgt
    rw [List.getElem_idxOf, List.getElem_idxOf] at hn
    exact absurd h hn

theorem idxOf_lt_of_path {l : List (Fin n)} (hl : l.Pairwise fun v w => ¬g.Edge w v)
    (hm : ∀ v, v ∈ l) (loopless : ∀ v, ¬g.Edge v v) {v w : Fin n} (h : TransGen g.Edge v w) :
    l.idxOf v < l.idxOf w := by
  induction h with
  | single h => exact idxOf_lt_of_edge hl hm loopless h
  | tail _ h ih => exact Nat.lt_trans ih (idxOf_lt_of_edge hl hm loopless h)

theorem cycleNode?_none (h : g.cycleNode? = none) (v : Fin n) : ¬g.OnCycle v := by
  unfold cycleNode? at h
  split at h <;> rename_i hs
  · cases h
  · have order := sweep_ok hs
    have hl := secondGathered?_none order.nodup (fun v _ => List.not_mem_nil) h
    intro hc
    exact Nat.lt_irrefl _ (idxOf_lt_of_path hl order.mem order.loopless hc)

end NativeBuild.Graph
