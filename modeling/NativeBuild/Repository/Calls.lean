import NativeBuild.Repository

namespace NativeBuild.Repository

/-- A call of the walk. The first one goes through the dependencies of the channel; the others go
through those of a selected variant, and begin with some components visited. -/
inductive Call where
  | first
  | inner (caller : Call) (node : Node) (visited : List ComponentId)
  deriving DecidableEq

namespace Call

def dependencies (channel : Channel) : Call → List Dependency
  | first => channel.dependencies
  | inner _ node _ => node.variant.dependencies

def visited : Call → List ComponentId
  | first => []
  | inner _ _ visited => visited

def depth : Call → Nat
  | first => 1
  | inner caller _ _ => caller.depth + 1

def component? : Call → Option ComponentId
  | first => none
  | inner _ node _ => some node.component.id

end Call

structure Trace where
  visited : List ComponentId
  nodes : List Node
  calls : List Call
  deriving DecidableEq

inductive Halt
  | failed (failure : ResolutionFailure)
  | tooDeep
  deriving DecidableEq

abbrev Tracing := ExceptT Halt (StateM Trace)

namespace Trace

def start : Trace := ⟨[], [], []⟩

def visit (id : ComponentId) (t : Trace) : Trace := { t with visited := t.visited ++ [id] }

def gather (n : Node) (t : Trace) : Trace := { t with nodes := t.nodes ++ [n] }

def begin (c : Call) (t : Trace) : Trace := { t with calls := t.calls ++ [c] }

end Trace

/-- Goes through dependencies. For each component that was not visited, `inner` makes the call that
goes through the dependencies of its selected variant. -/
def passThrough (r : Repository) (channel : Channel) (inner : Node → Tracing Unit) :
    List Dependency → Tracing Unit
  | [] => return
  | d :: rest =>
    match r.find? d with
    | none => throw (.failed (.missingComponent d.text channel.name))
    | some c => do
      if c.id ∉ (← get).visited then
        modify (.visit c.id)
        match select channel c with
        | .error e => throw (.failed e)
        | .ok v => do
          modify (.gather ⟨c, v⟩)
          inner ⟨c, v⟩
      passThrough r channel inner rest

def run (r : Repository) (channel : Channel) : Nat → Call → Tracing Unit
  | 0, _ => throw .tooDeep
  | limit + 1, c => do
    modify (.begin c)
    r.passThrough channel (fun n => do run r channel limit (.inner c n (← get).visited))
      (c.dependencies channel)

end NativeBuild.Repository
