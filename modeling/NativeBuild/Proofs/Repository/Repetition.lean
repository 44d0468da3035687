import Mathlib.Data.List.Basic
import Mathlib.Data.List.Induction
import NativeBuild.Proofs.Repository.Exploration

namespace NativeBuild

namespace DependencySet

variable (name : String) (ds : List Dependency) (d : Dependency)

theorem ofList_concat : ofList name (ds ++ [d]) = (ofList name ds).add d := by
  rw [ofList, ofList, List.foldl_append, List.foldl_cons, List.foldl_nil]

theorem dependencies_add (s : DependencySet) : (s.add d).dependencies =
    if d ∈ s.dependencies then s.dependencies else s.dependencies ++ [d] := by
  unfold add
  split <;> rfl

theorem name_ofList : (ofList name ds).name = name := by
  induction ds using List.reverseRecOn with
  | nil => rfl
  | append_singleton ds d ih =>
    rw [ofList_concat, add]
    split
    · exact ih
    · exact ih

theorem mem_ofList : d ∈ (ofList name ds).dependencies ↔ d ∈ ds := by
  induction ds using List.reverseRecOn with
  | nil => rfl
  | append_singleton ds e ih => rw [ofList_concat, mem_add, ih, List.mem_append, List.mem_singleton]

theorem count_ofList : (ofList name ds).dependencies.count d = if d ∈ ds then 1 else 0 := by
  rw [(ofList name ds).nodup.count]
  simp only [mem_ofList]

theorem pairwise_ofList :
    (ofList name ds).dependencies.Pairwise fun d e => ds.idxOf d < ds.idxOf e := by
  induction ds using List.reverseRecOn with
  | nil => exact .nil
  | append_singleton ds d ih =>
    -- The places of what came up before stay.
    have place {e : Dependency} (he : e ∈ ds) : (ds ++ [d]).idxOf e = ds.idxOf e :=
      List.idxOf_append_of_mem he
    have before : (ofList name ds).dependencies.Pairwise
        fun d' e => (ds ++ [d]).idxOf d' < (ds ++ [d]).idxOf e := by
      refine ih.imp_of_mem fun hd he less => ?_
      rw [place ((mem_ofList name ds _).1 hd), place ((mem_ofList name ds _).1 he)]
      exact less
    rw [ofList_concat, dependencies_add]
    split
    · exact before
    · rename_i new
      refine List.pairwise_append.2 ⟨before, List.pairwise_singleton _ _, fun e he d' hd => ?_⟩
      obtain rfl := List.mem_singleton.1 hd
      rw [mem_ofList] at he new
      rw [place he, List.idxOf_append_of_notMem new, List.idxOf_cons_self, Nat.add_zero]
      exact List.idxOf_lt_length_of_mem he

end DependencySet

namespace Repository

variable {r : Repository} {channel : Channel} {nodes : List Node} {d : Dependency}

theorem met_of_walk {ds : List Dependency} {out : { out : List Node // nodes ⊆ out }}
    (h : r.walk channel ds nodes = .ok out) (hd : d ∈ ds) : r.Met out.1 d := by
  fun_induction walk r channel ds nodes with
  | case1 => cases hd
  | case2 => cases h
  | case3 nodes e rest c found reached ih =>
    rcases List.mem_cons.1 hd with rfl | hd
    · exact ⟨c, found, reached_mono out.2 reached⟩
    · exact ih h hd
  | case4 => cases h
  | case5 => cases h
  | case6 => cases h
  | case7 nodes e rest c found new v hv below hb hw out' ho he ih₁ ih₂ =>
    cases h
    rcases List.mem_cons.1 hd with rfl | hd
    · have taken : (⟨c, v⟩ : Node) ∈ out' := ho (hb (by simp))
      exact ⟨c, found, reached_of_mem taken⟩
    · exact ih₂ he hd

theorem search_repeated {before : List Dependency} (hd : d ∈ before) (after : List Dependency)
    (nodes : List Node) :
    r.search channel (before ++ d :: after) nodes = r.search channel (before ++ after) nodes := by
  rw [search_append, search_append]
  -- By the time `d` comes up again the walk has failed, or has reached what `d` finds.
  cases hw : r.walk channel before nodes with
  | error e => rfl
  | ok out =>
    obtain ⟨c, found, reached⟩ := met_of_walk hw hd
    exact search_reached found reached

theorem search_ofList (name : String) (ds rest : List Dependency) (nodes : List Node) :
    r.search channel (ds ++ rest) nodes =
      r.search channel ((DependencySet.ofList name ds).dependencies ++ rest) nodes := by
  induction ds using List.reverseRecOn generalizing rest with
  | nil => rfl
  | append_singleton ds d ih =>
    rw [List.append_assoc, List.singleton_append, ih, DependencySet.ofList_concat,
      DependencySet.dependencies_add]
    split
    · rename_i old
      exact search_repeated old rest nodes
    · rw [List.append_assoc, List.singleton_append]

/-- A list of dependencies as a set has each of them once, in the order in which they come up first,
and nothing else. From any nodes on, a walk along the list and a walk along the set give the same
nodes in the same order, or the same failure. -/
theorem walk_ofList (name : String) (ds : List Dependency) :
    let set := DependencySet.ofList name ds
    (set.name = name ∧ (∀ d, set.dependencies.count d = if d ∈ ds then 1 else 0) ∧
      set.dependencies.Pairwise fun d e => ds.idxOf d < ds.idxOf e) ∧
    ∀ (r : Repository) (channel : Channel) (nodes : List Node),
      (r.walk channel ds nodes).map (·.1) = (r.walk channel set.dependencies nodes).map (·.1) := by
  intro set
  refine ⟨⟨DependencySet.name_ofList name ds, DependencySet.count_ofList name ds,
    DependencySet.pairwise_ofList name ds⟩, ?_⟩
  intro r channel nodes
  have same : r.search channel ds nodes = r.search channel set.dependencies nodes := by
    have appended := @search_ofList r channel name ds [] nodes
    rwa [List.append_nil, List.append_nil] at appended
  rw [map_walk, map_walk, same]

end Repository

end NativeBuild
