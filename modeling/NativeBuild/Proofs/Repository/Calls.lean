import Mathlib.Data.Finset.Card
import Mathlib.Data.Finset.Dedup
import Mathlib.Data.Finset.Filter
import NativeBuild.Proofs.Repository.Exploration
import NativeBuild.Repository.Calls

namespace NativeBuild.Repository

variable {r : Repository} {channel : Channel}

section Steps

variable {inner : Node → Tracing Unit} {d : Dependency} {rest : List Dependency} {c : Component}
variable {v : Variant} {t : Trace}

theorem run_passThrough_missing (h : r.find? d = none) :
    (r.passThrough channel inner (d :: rest)).run.run t =
      (.error (.failed (.missingComponent d.text channel.name)), t) := by
  rw [passThrough, h]
  rfl

theorem run_passThrough_visited (h : r.find? d = some c) (hc : c.id ∈ t.visited) :
    (r.passThrough channel inner (d :: rest)).run.run t =
      (r.passThrough channel inner rest).run.run t := by
  have skip : ¬c.id ∉ t.visited := not_not.2 hc
  rw [passThrough, h]
  change (if c.id ∉ t.visited then _ else _ : Tracing Unit).run.run t = _
  rw [if_neg skip]

theorem run_passThrough_stuck {e : ResolutionFailure} (h : r.find? d = some c)
    (hc : c.id ∉ t.visited) (he : select channel c = .error e) :
    (r.passThrough channel inner (d :: rest)).run.run t = (.error (.failed e), t.visit c.id) := by
  rw [passThrough, h]
  change (if c.id ∉ t.visited then _ else _ : Tracing Unit).run.run t = _
  rw [if_pos hc, he]
  rfl

theorem run_passThrough_taken (h : r.find? d = some c) (hc : c.id ∉ t.visited)
    (hv : select channel c = .ok v) :
    (r.passThrough channel inner (d :: rest)).run.run t =
      (do inner ⟨c, v⟩; r.passThrough channel inner rest).run.run
        ((t.visit c.id).gather ⟨c, v⟩) := by
  rw [passThrough, h]
  change (if c.id ∉ t.visited then _ else _ : Tracing Unit).run.run t = _
  rw [if_pos hc, hv]
  rfl

theorem run_bind_error {m k : Tracing Unit} {t' : Trace} {e : Halt}
    (h : m.run.run t = (.error e, t')) : (do m; k).run.run t = (.error e, t') := by
  rw [ExceptT.run_bind, StateT.run_bind, h]
  rfl

theorem run_bind_ok {m k : Tracing Unit} {t' : Trace} (h : m.run.run t = (.ok (), t')) :
    (do m; k).run.run t = k.run.run t' := by
  rw [ExceptT.run_bind, StateT.run_bind, h]
  rfl

abbrev innerCalls (r : Repository) (channel : Channel) (limit : Nat) (k : Call) (n : Node) :
    Tracing Unit := do
  r.run channel limit (.inner k n (← get).visited)

theorem run_succ (limit : Nat) (k : Call) (t : Trace) : (r.run channel (limit + 1) k).run.run t =
    (r.passThrough channel (r.innerCalls channel limit k) (k.dependencies channel)).run.run
      (t.begin k) := rfl

theorem run_innerCalls (limit : Nat) (k : Call) (n : Node) (t : Trace) :
    (r.innerCalls channel limit k n).run.run t =
      (r.run channel limit (.inner k n t.visited)).run.run t := rfl

end Steps

def ids (r : Repository) : Finset ComponentId :=
  (r.components.map (·.id)).toFinset

def unvisited (r : Repository) (visited : List ComponentId) : Finset ComponentId :=
  r.ids.filter (· ∉ visited)

section Unvisited

variable {visited visited' : List ComponentId} {d : Dependency} {c : Component}

theorem unvisited_mono (h : visited ⊆ visited') : r.unvisited visited' ⊆ r.unvisited visited :=
  Finset.monotone_filter_right _ fun _ _ new old => new (h old)

theorem card_unvisited_le (visited : List ComponentId) :
    (r.unvisited visited).card ≤ r.ids.card :=
  Finset.card_filter_le _ _

theorem id_mem_unvisited (h : r.find? d = some c) (hc : c.id ∉ visited) :
    c.id ∈ r.unvisited visited := by
  have known : c ∈ r.components := List.mem_of_find?_eq_some h
  simp only [unvisited, ids, Finset.mem_filter, List.mem_toFinset]
  exact ⟨List.mem_map_of_mem known, hc⟩

theorem card_unvisited_lt (h : r.find? d = some c) (hc : c.id ∉ visited) :
    (r.unvisited (visited ++ [c.id])).card < (r.unvisited visited).card := by
  apply Finset.card_lt_card
  refine (Finset.ssubset_iff_of_subset (unvisited_mono (List.subset_append_left _ _))).2 ?_
  refine ⟨c.id, id_mem_unvisited h hc, ?_⟩
  simp [unvisited]

end Unvisited

def Call.Nested (r : Repository) (k : Call) : Prop :=
  k.depth + (r.unvisited k.visited).card ≤ r.ids.card + 1

/-- What holds of the calls of a walk at any time. -/
structure Trace.Sound (r : Repository) (t : Trace) : Prop where
  shrinking : ∀ caller node visited, .inner caller node visited ∈ t.calls → caller ∈ t.calls ∧
    (r.unvisited visited).card < (r.unvisited caller.visited).card
  nested : ∀ k ∈ t.calls, k.Nested r
  visited : t.calls.filterMap (·.component?) ⊆ t.visited
  once : (t.calls.filterMap (·.component?)).Nodup

namespace Trace.Sound

variable {t : Trace} {k : Call}

theorem first : (Trace.start.begin .first).Sound r where
  shrinking := by simp [Trace.begin, Trace.start]
  nested := by
    simp only [Trace.begin, Trace.start, List.nil_append, List.mem_singleton, forall_eq, Call.Nested,
      Call.depth]
    rw [Nat.add_comm]
    exact Nat.add_le_add_right (card_unvisited_le _) 1
  visited := by simp [Trace.begin, Trace.start, Call.component?]
  once := by simp [Trace.begin, Trace.start, Call.component?]

theorem visit (h : t.Sound r) (id : ComponentId) : (t.visit id).Sound r where
  shrinking := h.shrinking
  nested := h.nested
  visited := List.Subset.trans h.visited (List.subset_append_left _ _)
  once := h.once

theorem gather (h : t.Sound r) (n : Node) : (t.gather n).Sound r where
  shrinking := h.shrinking
  nested := h.nested
  visited := h.visited
  once := h.once

end Trace.Sound

structure Trace.Ready (r : Repository) (t : Trace) (caller : Call) (n : Node) : Prop where
  sound : t.Sound r
  made : caller ∈ t.calls
  visited : n.component.id ∈ t.visited
  fresh : n.component.id ∉ t.calls.filterMap (·.component?)
  fewer : (r.unvisited t.visited).card < (r.unvisited caller.visited).card

theorem Trace.Ready.begin {t : Trace} {caller : Call} {n : Node} (h : t.Ready r caller n) :
    (t.begin (.inner caller n t.visited)).Sound r := by
  have ids : (t.begin (.inner caller n t.visited)).calls.filterMap (·.component?) =
      t.calls.filterMap (·.component?) ++ [n.component.id] := by
    simp [Trace.begin, Call.component?]
  constructor
  case shrinking =>
    intro k m visited hk
    rcases List.mem_append.1 hk with hk | hk
    · obtain ⟨made, fewer⟩ := h.sound.shrinking k m visited hk
      exact ⟨List.mem_append_left _ made, fewer⟩
    · cases List.mem_singleton.1 hk
      exact ⟨List.mem_append_left _ h.made, h.fewer⟩
  case nested =>
    intro k hk
    rcases List.mem_append.1 hk with hk | hk
    · exact h.sound.nested k hk
    -- One call more is under way, and one component fewer is unvisited.
    · have outer : caller.depth + _ ≤ _ := h.sound.nested caller h.made
      have fewer := h.fewer
      rw [List.mem_singleton.1 hk]
      simp only [Call.Nested, Call.depth, Call.visited]
      omega
  case visited =>
    rw [ids]
    exact List.append_subset.2 ⟨h.sound.visited, List.cons_subset.2 ⟨h.visited, List.nil_subset _⟩⟩
  case once =>
    rw [ids, ← List.concat_eq_append]
    exact h.sound.once.concat h.fresh

structure Trace.Later (r : Repository) (t t' : Trace) : Prop where
  sound : t'.Sound r
  visited : t.visited ⊆ t'.visited
  calls : t.calls ⊆ t'.calls

theorem Trace.Later.trans {t t' t'' : Trace} (h : t.Later r t') (h' : t'.Later r t'') :
    t.Later r t'' where
  sound := h'.sound
  visited := List.Subset.trans h.visited h'.visited
  calls := List.Subset.trans h.calls h'.calls

theorem later_passThrough {inner : Node → Tracing Unit} {k : Call}
    (step : ∀ n (t : Trace), t.Ready r k n → t.Later r ((inner n).run.run t).2) (ds : List Dependency)
    {t : Trace} (h : t.Sound r) (made : k ∈ t.calls) (older : k.visited ⊆ t.visited) :
    t.Later r ((r.passThrough channel inner ds).run.run t).2 := by
  have stay : t.Later r t := ⟨h, List.Subset.refl _, List.Subset.refl _⟩
  induction ds generalizing t with
  | nil => exact stay
  | cons d rest ih =>
    cases hd : r.find? d with
    | none =>
      rw [run_passThrough_missing hd]
      exact stay
    | some c =>
      by_cases hc : c.id ∈ t.visited
      · rw [run_passThrough_visited hd hc]
        exact ih h made older stay
      · have visited : t.Later r (t.visit c.id) :=
          ⟨h.visit c.id, List.subset_append_left _ _, List.Subset.refl _⟩
        cases hs : select channel c with
        | error e =>
          rw [run_passThrough_stuck hd hc hs]
          exact visited
        | ok v =>
          rw [run_passThrough_taken hd hc hs]
          have gathered : t.Later r ((t.visit c.id).gather ⟨c, v⟩) :=
            ⟨visited.sound.gather _, visited.visited, visited.calls⟩
          -- Only components that were visited have had a call, so `c` has had none.
          have ready : ((t.visit c.id).gather ⟨c, v⟩).Ready r k ⟨c, v⟩ := by
            constructor
            case sound => exact gathered.sound
            case made => exact made
            case visited => exact List.mem_append_right _ List.mem_cons_self
            case fresh => exact fun again => hc (h.visited again)
            case fewer =>
              exact Nat.lt_of_lt_of_le (card_unvisited_lt hd hc)
                (Finset.card_le_card (unvisited_mono older))
          have below := gathered.trans (step _ _ ready)
          cases hi : (inner ⟨c, v⟩).run.run ((t.visit c.id).gather ⟨c, v⟩) with
          | mk result t' =>
            rw [hi] at below
            cases result with
            | error e =>
              rw [run_bind_error hi]
              exact below
            | ok =>
              rw [run_bind_ok hi]
              exact below.trans (ih below.sound (below.calls made)
                (List.Subset.trans older below.visited)
                ⟨below.sound, List.Subset.refl _, List.Subset.refl _⟩)

theorem later_run (limit : Nat) {caller : Call} {n : Node} {t : Trace} (h : t.Ready r caller n) :
    t.Later r ((r.run channel limit (.inner caller n t.visited)).run.run t).2 := by
  induction limit generalizing caller n t with
  | zero => exact ⟨h.sound, List.Subset.refl _, List.Subset.refl _⟩
  | succ limit ih =>
    have begun : t.Later r (t.begin (.inner caller n t.visited)) :=
      ⟨h.begin, List.Subset.refl _, List.subset_append_left _ _⟩
    rw [run_succ]
    refine begun.trans (later_passThrough (fun m s ready => ih ready) _ begun.sound ?_ ?_)
    · exact List.mem_append_right _ List.mem_cons_self
    · exact List.Subset.refl _

structure Trace.Shows (t : Trace) (nodes : List Node) : Prop where
  gathered : t.nodes = nodes
  visited : t.visited = nodes.map (·.component.id)

theorem Trace.Shows.gather {t : Trace} {nodes : List Node} (h : t.Shows nodes) (n : Node) :
    ((t.visit n.component.id).gather n).Shows (nodes ++ [n]) where
  gathered := by rw [Trace.gather, Trace.visit, h.gathered]
  visited := by
    rw [List.map_append, ← h.visited]
    rfl

theorem Trace.Shows.begin {t : Trace} {nodes : List Node} (h : t.Shows nodes) (k : Call) :
    (t.begin k).Shows nodes where
  gathered := h.gathered
  visited := h.visited

theorem Trace.Shows.mem_visited_iff {t : Trace} {nodes : List Node} (h : t.Shows nodes)
    {id : ComponentId} : id ∈ t.visited ↔ reached nodes id = true := by
  rw [h.visited, reached_iff]

inductive Agrees {nodes : List Node} :
    Except ResolutionFailure { out : List Node // nodes ⊆ out } → Except Halt Unit × Trace → Prop
  | failed {e t} : Agrees (.error e) (.error (.failed e), t)
  | done {out t} : t.Shows out.1 → Agrees (.ok out) (.ok (), t)

section Inner

variable {nodes : List Node} {d : Dependency} {c : Component} {v : Variant} {limit : Nat} {k : Call}
variable {t : Trace}

theorem innerCalls_agrees (hd : r.find? d = some c) (h : t.Shows nodes) (new : c.id ∉ t.visited)
    (enough : (r.unvisited t.visited).card ≤ limit)
    (below : ∀ limit k {s : Trace}, s.Shows (nodes ++ [⟨c, v⟩]) →
      (r.unvisited s.visited).card ≤ limit →
        Agrees (r.walk channel v.dependencies (nodes ++ [⟨c, v⟩]))
          ((r.passThrough channel (r.innerCalls channel limit k) v.dependencies).run.run s)) :
    Agrees (r.walk channel v.dependencies (nodes ++ [⟨c, v⟩]))
      ((r.innerCalls channel limit k ⟨c, v⟩).run.run ((t.visit c.id).gather ⟨c, v⟩)) := by
  -- The component of the call is among the unvisited, so the limit is not used up.
  have fewer := card_unvisited_lt hd new
  obtain ⟨limit, rfl⟩ := Nat.exists_eq_succ_of_ne_zero (n := limit) (by omega)
  rw [run_innerCalls, run_succ]
  exact below limit _ ((h.gather ⟨c, v⟩).begin _) (Nat.le_of_lt_succ (Nat.lt_of_lt_of_le fewer enough))

theorem Trace.Shows.enough {out : List Node} {t' : Trace} (h : t.Shows nodes) (h' : t'.Shows out)
    (grown : nodes ++ [⟨c, v⟩] ⊆ out) (enough : (r.unvisited t.visited).card ≤ limit) :
    (r.unvisited t'.visited).card ≤ limit := by
  refine Nat.le_trans (Finset.card_le_card (unvisited_mono ?_)) enough
  rw [h.visited, h'.visited]
  exact List.map_subset _ (List.Subset.trans (List.subset_append_left _ _) grown)

theorem Agrees.eq_failed {e : ResolutionFailure} {ran : Except Halt Unit × Trace}
    (h : Agrees (.error e : Except ResolutionFailure { out : List Node // nodes ⊆ out }) ran) :
    ∃ t, ran = (.error (.failed e), t) := by
  cases h
  exact ⟨_, rfl⟩

theorem Agrees.eq_done {out : { out : List Node // nodes ⊆ out }} {ran : Except Halt Unit × Trace}
    (h : Agrees (.ok out) ran) : ∃ t, ran = (.ok (), t) ∧ t.Shows out.1 := by
  cases h with
  | done shows => exact ⟨_, rfl, shows⟩

end Inner

theorem passThrough_agrees {nodes : List Node} (ds : List Dependency) (limit : Nat) (k : Call)
    {t : Trace} (h : t.Shows nodes) (enough : (r.unvisited t.visited).card ≤ limit) :
    Agrees (r.walk channel ds nodes)
      ((r.passThrough channel (r.innerCalls channel limit k) ds).run.run t) := by
  fun_induction walk r channel ds nodes generalizing limit k t with
  | case1 nodes => exact .done h
  | case2 nodes d rest hd =>
    rw [run_passThrough_missing hd]
    exact .failed
  | case3 nodes d rest c hd hc ih =>
    rw [run_passThrough_visited hd (h.mem_visited_iff.2 hc)]
    exact ih limit k h enough
  | case4 nodes d rest c hd hc e he =>
    rw [run_passThrough_stuck hd (mt h.mem_visited_iff.1 hc) he]
    exact .failed
  | case5 nodes d rest c hd hc v hv e he ih =>
    have new := mt h.mem_visited_iff.1 hc
    obtain ⟨t', ran⟩ := (he ▸ innerCalls_agrees (k := k) hd h new enough ih).eq_failed
    rw [run_passThrough_taken hd new hv, run_bind_error ran]
    exact .failed
  | case6 nodes d rest c hd hc v hv below hb hw e he ih₁ ih₂ =>
    have new := mt h.mem_visited_iff.1 hc
    obtain ⟨t', ran, shows⟩ := (hw ▸ innerCalls_agrees (k := k) hd h new enough ih₁).eq_done
    have rest := ih₂ limit k shows (h.enough shows hb enough)
    rw [he] at rest
    obtain ⟨t'', ran'⟩ := rest.eq_failed
    rw [run_passThrough_taken hd new hv, run_bind_ok ran, ran']
    exact .failed
  | case7 nodes d rest c hd hc v hv below hb hw out ho he ih₁ ih₂ =>
    have new := mt h.mem_visited_iff.1 hc
    obtain ⟨t', ran, shows⟩ := (hw ▸ innerCalls_agrees (k := k) hd h new enough ih₁).eq_done
    have rest := ih₂ limit k shows (h.enough shows hb enough)
    rw [he] at rest
    obtain ⟨t'', ran', shows'⟩ := rest.eq_done
    rw [run_passThrough_taken hd new hv, run_bind_ok ran, ran']
    exact .done shows'

/-- From any request on, the calls come to the end that the walk comes to, also when they may be
nested deeper than there are components, with one more call. Each call but the first is made by
another one with fewer components unvisited; no call is nested in more of them than there are
components, and the dependencies of a component are gone through by one call at most. -/
theorem run_bounded (r : Repository) (q : Request) (extra : Nat) :
    let ran := (r.run q.channel (r.ids.card + 1 + extra) .first).run.run .start
    ran.1.map (fun _ => ran.2.nodes) = (r.nodes q.channel).mapError .failed ∧
    (∀ caller node visited, .inner caller node visited ∈ ran.2.calls → caller ∈ ran.2.calls ∧
      (r.unvisited visited).card < (r.unvisited caller.visited).card) ∧
    (∀ k ∈ ran.2.calls, k.depth ≤ r.ids.card + 1) ∧
    (ran.2.calls.filterMap (·.component?)).Nodup := by
  intro ran
  have ran_eq : ran = (r.passThrough q.channel (r.innerCalls q.channel (r.ids.card + extra) .first)
      q.channel.dependencies).run.run (Trace.start.begin .first) := by
    have limit : r.ids.card + 1 + extra = r.ids.card + extra + 1 := Nat.add_right_comm _ _ _
    simp only [ran, limit]
    exact run_succ _ _ _
  have agrees : Agrees (r.walk q.channel q.channel.dependencies []) ran := by
    rw [ran_eq]
    exact passThrough_agrees _ _ _ ⟨rfl, rfl⟩
      (Nat.le_trans (card_unvisited_le _) (Nat.le_add_right _ _))
  have sound : ran.2.Sound r := by
    rw [ran_eq]
    exact (later_passThrough (fun n t ready => later_run _ ready) _ .first List.mem_cons_self
      (List.Subset.refl _)).sound
  refine ⟨?_, sound.shrinking, ?_, sound.once⟩
  · rw [nodes]
    cases hw : r.walk q.channel q.channel.dependencies [] with
    | error e =>
      obtain ⟨t, h⟩ := (hw ▸ agrees).eq_failed
      rw [h]
      rfl
    | ok out =>
      obtain ⟨t, h, shows⟩ := (hw ▸ agrees).eq_done
      rw [h]
      exact congrArg Except.ok shows.gathered
  · intro k hk
    exact Nat.le_trans (Nat.le_add_right _ _) (sound.nested k hk)

def knotted : Repository :=
  let interface (dependencies : List Dependency) : Variant :=
    ⟨"api", Channel.requestedAttributes .compile .debug, [], dependencies⟩
  ⟨[⟨.project ":a", [interface [.project ":a", .module "" "Json" ""]]⟩,
    ⟨.module "org" "Json" "1.0", [interface [.project ":a", .module "org" "Json" ""]]⟩,
    ⟨.project ":a", []⟩]⟩

theorem run_bounded_knotted :
    let q := (Channel.ofBinary .compile .debug ⟨"implementation", [.project ":a"], by decide⟩).request
    let ran := (knotted.run q.channel 3 .first).run.run .start
    ran.2.calls.map (·.depth) = [1, 2, 3] ∧ (∀ k ∈ ran.2.calls, k.depth ≤ 3) ∧
      (ran.2.calls.filterMap (·.component?)).Nodup := by
  intro q ran
  have card : knotted.ids.card = 2 := by decide +kernel
  have bounded := run_bounded knotted q 0
  rw [card] at bounded
  obtain ⟨-, -, nested, once⟩ := bounded
  exact ⟨by decide +kernel, nested, once⟩

end NativeBuild.Repository
