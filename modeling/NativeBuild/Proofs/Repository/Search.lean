import Mathlib.Logic.Relation
import NativeBuild.Proofs.Repository.Reachability
import NativeBuild.Repository.Worklist

namespace NativeBuild.Repository

open Relation

variable {r : Repository} {channel : Channel}

theorem select_eq_ok {c : Component} {v : Variant} :
    select channel c = .ok v ↔ c.matching channel.attributes = [v] := by
  unfold select choose
  split <;> rename_i h
  · simp [h, bind, Except.bind, throw, throwThe, MonadExceptOf.throw]
  · simp [h, bind, Except.bind, pure, Except.pure]
  · simp [bind, Except.bind]
    intro hv
    simp_all

theorem select_unmatched {c : Component} (h : c.matching channel.attributes = []) :
    select channel c =
      .error (.noMatchingVariant c.id.displayName channel.attributes.text channel.name) := by
  unfold select choose
  rw [h]
  rfl

theorem select_ambiguous {c : Component} (h : 2 ≤ (c.matching channel.attributes).length) :
    select channel c = .error (.ambiguousVariants c.id.displayName channel.attributes.text
      (c.matching channel.attributes).length) := by
  unfold select choose
  split
  case h_1 hm => simp [hm] at h
  case h_2 hm => simp [hm] at h
  case h_3 => rfl

theorem matching_cases (channel : Channel) (c : Component) : c.matching channel.attributes = [] ∨
    (∃ v, c.matching channel.attributes = [v]) ∨ 2 ≤ (c.matching channel.attributes).length := by
  match c.matching channel.attributes with
  | [] => exact .inl rfl
  | [v] => exact .inr (.inl ⟨v, rfl⟩)
  | _ :: _ :: _ => exact .inr (.inr (by simp))

section Steps

variable {d : Dependency} {rest : List Dependency} {nodes : List Node} {c : Component}

@[simp] theorem search_nil : r.search channel [] nodes = .ok nodes := by
  rw [search]

theorem search_missing (h : r.find? d = none) :
    r.search channel (d :: rest) nodes = .error (.missingComponent d.text channel.name) := by
  rw [search]
  split <;> simp_all

theorem search_reached (h : r.find? d = some c) (hc : reached nodes c.id = true) :
    r.search channel (d :: rest) nodes = r.search channel rest nodes := by
  rw [search]
  split <;> simp_all

theorem search_stuck {e : ResolutionFailure} (h : r.find? d = some c)
    (hc : ¬reached nodes c.id = true) (he : select channel c = .error e) :
    r.search channel (d :: rest) nodes = .error e := by
  rw [search]
  split <;> simp_all

theorem search_taken {v : Variant} (h : r.find? d = some c) (hc : ¬reached nodes c.id = true)
    (hv : select channel c = .ok v) : r.search channel (d :: rest) nodes =
      r.search channel (v.dependencies ++ rest) (nodes ++ [⟨c, v⟩]) := by
  rw [search]
  split <;> simp_all

end Steps

-- `rest` stands for what the callers of the walk still have to do.
theorem search_append (ds rest : List Dependency) (nodes : List Node) :
    r.search channel (ds ++ rest) nodes =
      (r.walk channel ds nodes).bind fun out => r.search channel rest out.1 := by
  fun_induction walk r channel ds nodes generalizing rest with
  | case1 => rfl
  | case2 nodes d ds h => exact search_missing h
  | case3 nodes d ds c h hc ih => rw [List.cons_append, search_reached h hc, ih]
  | case4 nodes d ds c h hc e he => exact search_stuck h hc he
  | case5 nodes d ds c h hc v hv e he ih =>
    rw [List.cons_append, search_taken h hc hv, ih, he]
    rfl
  | case6 nodes d ds c h hc v hv below hb hw e he ih₁ ih₂ =>
    rw [List.cons_append, search_taken h hc hv, ih₁, hw]
    change r.search channel (ds ++ rest) below = _
    rw [ih₂, he]
    rfl
  | case7 nodes d ds c h hc v hv below hb hw out ho he ih₁ ih₂ =>
    rw [List.cons_append, search_taken h hc hv, ih₁, hw]
    change r.search channel (ds ++ rest) below = _
    rw [ih₂, he]
    rfl

theorem map_walk (r : Repository) (channel : Channel) (ds : List Dependency) (nodes : List Node) :
    (r.walk channel ds nodes).map (·.1) = r.search channel ds nodes := by
  have h : r.search channel (ds ++ []) nodes = _ := search_append ds [] nodes
  rw [List.append_nil] at h
  rw [h]
  cases r.walk channel ds nodes with
  | error e => rfl
  | ok out => exact search_nil.symm

theorem nodes_eq_search : r.nodes channel = r.search channel channel.dependencies [] :=
  map_walk r channel channel.dependencies []

/-- A move from the dependencies that are pending, and the nodes so far, to the next ones. -/
inductive Move (r : Repository) (channel : Channel) :
    List Dependency × List Node → List Dependency × List Node → Prop
  | drop {d rest nodes c} : r.find? d = some c → reached nodes c.id = true →
      Move r channel (d :: rest, nodes) (rest, nodes)
  | take {d rest nodes c v} : r.find? d = some c → reached nodes c.id = false →
      c.matching channel.attributes = [v] →
      Move r channel (d :: rest, nodes) (v.dependencies ++ rest, nodes ++ [⟨c, v⟩])

/-- No move leads on: the first pending dependency finds no component, or a new one without exactly
one matching variant. -/
inductive Stops (r : Repository) (channel : Channel) :
    List Dependency × List Node → ResolutionFailure → Prop
  | missing {d rest nodes} : r.find? d = none →
      Stops r channel (d :: rest, nodes) (.missingComponent d.text channel.name)
  | unmatched {d rest nodes c} : r.find? d = some c → reached nodes c.id = false →
      c.matching channel.attributes = [] → Stops r channel (d :: rest, nodes)
        (.noMatchingVariant c.id.displayName channel.attributes.text channel.name)
  | ambiguous {d rest nodes c} : r.find? d = some c → reached nodes c.id = false →
      2 ≤ (c.matching channel.attributes).length → Stops r channel (d :: rest, nodes)
        (.ambiguousVariants c.id.displayName channel.attributes.text
          (c.matching channel.attributes).length)

section Moves

variable {s t : List Dependency × List Node} {e : ResolutionFailure}
variable {pending : List Dependency} {nodes : List Node}

theorem search_move (h : r.Move channel s t) :
    r.search channel s.1 s.2 = r.search channel t.1 t.2 := by
  cases h with
  | drop hd hc => exact search_reached hd hc
  | take hd hc hv => exact search_taken hd (by simp [hc]) (select_eq_ok.2 hv)

theorem search_moves (h : ReflTransGen (r.Move channel) s t) :
    r.search channel s.1 s.2 = r.search channel t.1 t.2 := by
  induction h with
  | refl => rfl
  | tail _ h ih => exact ih.trans (search_move h)

theorem search_stops (h : r.Stops channel s e) : r.search channel s.1 s.2 = .error e := by
  cases h with
  | missing hd => exact search_missing hd
  | unmatched hd hc hm => exact search_stuck hd (by simp [hc]) (select_unmatched hm)
  | ambiguous hd hc hm => exact search_stuck hd (by simp [hc]) (select_ambiguous hm)

theorem stops_of_select {d : Dependency} {rest : List Dependency} {c : Component}
    (hd : r.find? d = some c) (hc : reached nodes c.id = false) (h : select channel c = .error e) :
    r.Stops channel (d :: rest, nodes) e := by
  rcases matching_cases channel c with hm | ⟨v, hm⟩ | hm
  · rw [select_unmatched hm] at h
    cases h
    exact .unmatched hd hc hm
  · rw [select_eq_ok.2 hm] at h
    cases h
  · rw [select_ambiguous hm] at h
    cases h
    exact .ambiguous hd hc hm

theorem moves_of_search_ok {out : List Node} (h : r.search channel pending nodes = .ok out) :
    ReflTransGen (r.Move channel) (pending, nodes) ([], out) := by
  fun_induction search r channel pending nodes with
  | case1 nodes =>
    cases h
    exact .refl
  | case2 => cases h
  | case3 nodes d rest c hd hc ih => exact .head (.drop hd hc) (ih h)
  | case4 => cases h
  | case5 nodes d rest c hd hc v hv ih =>
    exact .head (.take hd (Bool.eq_false_iff.2 hc) (select_eq_ok.1 hv)) (ih h)

theorem moves_of_search_error (h : r.search channel pending nodes = .error e) :
    ∃ s, ReflTransGen (r.Move channel) (pending, nodes) s ∧ r.Stops channel s e := by
  fun_induction search r channel pending nodes with
  | case1 => cases h
  | case2 nodes d rest hd =>
    cases h
    exact ⟨_, .refl, .missing hd⟩
  | case3 nodes d rest c hd hc ih =>
    obtain ⟨s, moves, stops⟩ := ih h
    exact ⟨s, .head (.drop hd hc) moves, stops⟩
  | case4 nodes d rest c hd hc e' he =>
    cases h
    exact ⟨_, .refl, stops_of_select hd (Bool.eq_false_iff.2 hc) he⟩
  | case5 nodes d rest c hd hc v hv ih =>
    obtain ⟨s, moves, stops⟩ := ih h
    exact ⟨s, .head (.take hd (Bool.eq_false_iff.2 hc) (select_eq_ok.1 hv)) moves, stops⟩

end Moves

/-- The walk gives what the search gives that starts with the declared dependencies: the nodes if
moves lead to where nothing is pending, and the failure if they lead to where it stops. -/
theorem walk_preorder (r : Repository) (channel : Channel) :
    let walked := (r.walk channel channel.dependencies []).map (·.1)
    walked = r.search channel channel.dependencies [] ∧
    (∀ nodes, walked = .ok nodes ↔
      ReflTransGen (r.Move channel) (channel.dependencies, []) ([], nodes)) ∧
    ∀ e, walked = .error e ↔
      ∃ s, ReflTransGen (r.Move channel) (channel.dependencies, []) s ∧ r.Stops channel s e := by
  intro walked
  have walk : walked = r.search channel channel.dependencies [] := nodes_eq_search
  rw [walk]
  refine ⟨rfl, fun nodes => ⟨moves_of_search_ok, fun moves => ?_⟩, fun e => ⟨moves_of_search_error, ?_⟩⟩
  · exact (search_moves moves).trans search_nil
  · rintro ⟨s, moves, stops⟩
    exact (search_moves moves).trans (search_stops stops)

end NativeBuild.Repository
