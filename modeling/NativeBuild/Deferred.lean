universe u v

namespace NativeBuild

inductive Deferred (α : Type u) where
  | unevaluated
  | evaluated (value : α)
  deriving DecidableEq, Inhabited

namespace Deferred

variable {α : Type u}

def ready (value : α) : Deferred α := .evaluated value

def isEvaluated : Deferred α → Bool
  | .unevaluated => false
  | .evaluated _ => true

def value? : Deferred α → Option α
  | .unevaluated => none
  | .evaluated value => some value

def read {m : Type u → Type v} [Monad m] (cell : Deferred α) (init : m α) : m (α × Deferred α) :=
  match cell with
  | .evaluated value => return (value, .evaluated value)
  | .unevaluated => do
    let value ← init
    return (value, .evaluated value)

@[simp] theorem read_evaluated {m : Type u → Type v} [Monad m] (value : α) (init : m α) :
    (evaluated value).read init = pure (value, evaluated value) := rfl

@[simp] theorem isEvaluated_ready (value : α) : (ready value).isEvaluated = true := rfl

end Deferred

end NativeBuild
