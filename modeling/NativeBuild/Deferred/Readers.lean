import NativeBuild.Deferred

universe u

namespace NativeBuild

inductive Reader (α : Type u) where
  | idle
  | running
  | waiting
  | returned (value : α)
  deriving DecidableEq, Inhabited

/-- A deferred value, how often its initialiser was started, and its readers by number. A reader
that comes while the initialiser runs waits for it to end. -/
structure Readers (α : Type u) where
  cell : Deferred α
  runs : Nat
  busy : Bool
  reader : Nat → Reader α

inductive Readers.Event (α : Type u) where
  | call (reader : Nat)
  | finish (reader : Nat) (value : α)
  | resume (reader : Nat)

namespace Readers

variable {α : Type u}

def start (cell : Deferred α) : Readers α := ⟨cell, 0, false, fun _ => .idle⟩

def move (s : Readers α) (i : Nat) (r : Reader α) : Readers α :=
  { s with reader := fun j => if j = i then r else s.reader j }

def step (s : Readers α) : Event α → Option (Readers α)
  | .call i =>
    match s.reader i, s.cell with
    | .idle, .evaluated v => some (s.move i (.returned v))
    | .idle, .unevaluated =>
      if s.busy then some (s.move i .waiting)
      else some { s.move i .running with runs := s.runs + 1, busy := true }
    | _, _ => none
  | .finish i v =>
    match s.reader i with
    | .running => some { s.move i (.returned v) with cell := .evaluated v, busy := false }
    | _ => none
  | .resume i =>
    match s.reader i, s.cell with
    | .waiting, .evaluated v => some (s.move i (.returned v))
    | _, _ => none

def run (s : Readers α) (events : List (Event α)) : Option (Readers α) :=
  events.foldlM step s

end Readers

end NativeBuild
