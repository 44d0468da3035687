import NativeBuild.Counting
import NativeBuild.Repository

namespace NativeBuild.Repository

theorem reached_of_mem {nodes : List Node} {n : Node} (h : n ∈ nodes) :
    reached nodes n.component.id = true :=
  List.any_eq_true.2 ⟨n, h, by simp⟩

theorem reached_mono {nodes out : List Node} (h : nodes ⊆ out) {id : ComponentId}
    (hr : reached nodes id = true) : reached out id = true := by
  obtain ⟨n, hn, e⟩ := List.any_eq_true.1 hr
  exact List.any_eq_true.2 ⟨n, h hn, e⟩

theorem unreached_le {r : Repository} {nodes out : List Node} (h : nodes ⊆ out) :
    (r.unreached out).length ≤ (r.unreached nodes).length := by
  refine filter_length_mono fun c _ hc => ?_
  cases hn : reached nodes c.id with
  | false => rfl
  | true => simp [reached_mono h hn] at hc

theorem unreached_lt {r : Repository} {nodes : List Node} {d : Dependency} {c : Component}
    (hd : r.find? d = some c) (hc : ¬reached nodes c.id = true) (v : Variant) :
    (r.unreached (nodes ++ [⟨c, v⟩])).length < (r.unreached nodes).length := by
  have hmem : c ∈ r.components := List.mem_of_find?_eq_some hd
  refine filter_length_strict (fun a _ ha => ?_) hmem (by simpa using hc) ?_
  · cases hn : reached nodes a.id with
    | false => rfl
    | true =>
      have : reached (nodes ++ [⟨c, v⟩]) a.id = true :=
        reached_mono (List.subset_append_left _ _) hn
      simp [this] at ha
  · have : reached (nodes ++ [⟨c, v⟩]) c.id = true :=
      reached_of_mem (n := ⟨c, v⟩) (by simp)
    simp [this]

/-- Follows dependencies depth first, a component before what it depends on. The nodes gathered
before tell which components were reached, so cycles end it as well. -/
def walk (r : Repository) (channel : Channel) (ds : List Dependency) (nodes : List Node) :
    Except ResolutionFailure { out : List Node // nodes ⊆ out } :=
  match ds with
  | [] => .ok ⟨nodes, List.Subset.refl nodes⟩
  | d :: rest =>
    match _ : r.find? d with
    | none => .error (.missingComponent d.text channel.name)
    | some c =>
      if _ : reached nodes c.id = true then r.walk channel rest nodes
      else
        match select channel c with
        | .error e => .error e
        | .ok v =>
          match r.walk channel v.dependencies (nodes ++ [⟨c, v⟩]) with
          | .error e => .error e
          | .ok ⟨below, hb⟩ =>
            match r.walk channel rest below with
            | .error e => .error e
            | .ok ⟨out, ho⟩ =>
              .ok ⟨out, fun _ h => ho (hb (List.mem_append_left _ h))⟩
termination_by ((r.unreached nodes).length, ds.length)
decreasing_by
  · exact Prod.Lex.right _ (Nat.lt_succ_self _)
  · exact Prod.Lex.left _ _ (unreached_lt ‹_› ‹_› v)
  · refine Prod.Lex.left _ _ (Nat.lt_of_le_of_lt (unreached_le hb) (unreached_lt ‹_› ‹_› v))

def nodes (r : Repository) (channel : Channel) : Except ResolutionFailure (List Node) :=
  (r.walk channel channel.dependencies []).map (·.1)

/-- What a component adds to a view: the files of its only variant with the wanted attributes. -/
def viewOf (wanted : AttributeSet) (n : Node) : Resolution := do
  match ← choose n.component wanted with
  | some v => return n.component.artifacts v
  | none => return []

def resolve (r : Repository) (q : Request) : Resolution := do
  let nodes ← r.nodes q.channel
  match q.view with
  | none => return nodes.flatMap fun n => n.component.artifacts n.variant
  | some _ => return (← nodes.mapM (viewOf q.selection)).flatten

def engine (r : Repository) : Engine := fun _ q => r.resolve q

end NativeBuild.Repository
