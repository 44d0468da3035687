import NativeBuild.Counting
import NativeBuild.Repository

/-! The search for a cycle among the components of a repository. A sweep over the edges puts the
nodes in the order in which it finishes with them; then, from the last finished to the first, the
nodes that lead to each are gathered, leaving out those gathered before. Without a cycle every node
gathers itself alone. -/

namespace NativeBuild

structure Graph (n : Nat) where
  edges : List (Fin n × Fin n)

namespace Graph

variable {n : Nat}

def connect (g : Graph n) (source target : Fin n) : Graph n :=
  if (source, target) ∈ g.edges then g else ⟨(source, target) :: g.edges⟩

def successors (g : Graph n) (v : Fin n) : List (Fin n) :=
  g.edges.filterMap fun e => if e.1 = v then some e.2 else none

def predecessors (g : Graph n) (v : Fin n) : List (Fin n) :=
  g.edges.filterMap fun e => if e.2 = v then some e.1 else none

def outside (seen : List (Fin n)) : List (Fin n) :=
  (List.finRange n).filter fun v => decide (v ∉ seen)

theorem outside_lt {seen : List (Fin n)} {v : Fin n} (h : v ∉ seen) :
    (outside (v :: seen)).length < (outside seen).length :=
  filter_length_strict (fun a _ ha => by simp_all) (List.mem_finRange v)
    (by simpa using h) (by simp)

structure Sweep (n : Nat) where
  discovered : List (Fin n)
  finished : List (Fin n)

/-- Sweeps what can be reached from the nodes on a stack. A node is finished once everything above
it is; a node with an edge to itself ends the sweep. -/
def sweepStack (g : Graph n) (stack : List (Fin n)) (s : Sweep n) : Except (Fin n) (Sweep n) :=
  match stack with
  | [] => .ok s
  | v :: rest =>
    if v ∈ s.discovered then
      g.sweepStack rest
        (if v ∈ s.finished then s else ⟨s.discovered, v :: s.finished⟩)
    else if v ∈ g.successors v then .error v
    else
      let above := (g.successors v).filter fun w => decide (w ∉ v :: s.discovered)
      -- `v` stays below what it leads to, and is finished when it comes up again.
      g.sweepStack (above.reverse ++ v :: rest) ⟨v :: s.discovered, s.finished⟩
termination_by ((outside s.discovered).length, stack.length)
decreasing_by
  · split
    · exact Prod.Lex.right _ (Nat.lt_succ_self _)
    · exact Prod.Lex.right _ (Nat.lt_succ_self _)
  · exact Prod.Lex.left _ _ (outside_lt ‹_›)

def sweep (g : Graph n) : Except (Fin n) (Sweep n) :=
  (List.finRange n).foldlM (fun s v => g.sweepStack [v] s) ⟨[], []⟩

def gather (g : Graph n) (stack marks visited : List (Fin n)) : List (Fin n) × List (Fin n) :=
  match stack with
  | [] => (marks, visited)
  | v :: rest =>
    if v ∈ marks then g.gather rest marks visited
    else
      let above := (g.predecessors v).filter fun w => decide (w ∉ v :: marks)
      g.gather (above.reverse ++ rest) (v :: marks) (visited ++ [v])
termination_by ((outside marks).length, stack.length)
decreasing_by
  · exact Prod.Lex.right _ (Nat.lt_succ_self _)
  · exact Prod.Lex.left _ _ (outside_lt ‹_›)

def secondGathered? (g : Graph n) (marks : List (Fin n)) : List (Fin n) → Option (Fin n)
  | [] => none
  | v :: rest =>
    match g.gather [v] marks [] with
    | (_, _ :: w :: _) => some w
    | (marks, _) => g.secondGathered? marks rest

def cycleNode? (g : Graph n) : Option (Fin n) :=
  match g.sweep with
  | .error v => some v
  | .ok s => g.secondGathered? [] s.finished

end Graph

namespace Repository

/-- The position that stands for an identifier: the last one with it. -/
def position? (r : Repository) (id : ComponentId) : Option (Fin r.components.length) :=
  (List.finRange r.components.length).reverse.find? fun i => r.components[i].id == id

def edgesOf (r : Repository) (c : Component) :
    List (Fin r.components.length × Fin r.components.length) :=
  (c.variants.flatMap (·.dependencies)).filterMap fun d => do
    let target ← r.find? d
    return (← r.position? c.id, ← r.position? target.id)

def graph (r : Repository) : Graph r.components.length :=
  (r.components.flatMap r.edgesOf).foldl (fun g e => g.connect e.1 e.2) ⟨[]⟩

def validate (r : Repository) : Except ResolutionFailure Unit :=
  match r.graph.cycleNode? with
  | some v => .error (.dependencyCycle r.components[v].id.displayName)
  | none => .ok ()

end Repository

end NativeBuild
