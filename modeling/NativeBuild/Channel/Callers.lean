import NativeBuild.Channel.Registry

namespace NativeBuild

def Registry.obtain (r : Registry) (c : Channel) : Except BuildError (Channel × Registry) :=
  match r.get? c.name with
  | none => .ok (c, r.insert c.name c)
  | some registered =>
    if registered = c then .ok (registered, r) else .error (.channelConflict c.name)

theorem Registry.obtain_eq (r : Registry) (c : Channel) :
    r.obtain c = (r.register c).map fun r => (c, r) := by
  unfold obtain register
  cases r.get? c.name with
  | none => rfl
  | some registered =>
    by_cases h : registered = c
    · simp [h, Except.map]
    · simp [h, Except.map]

structure Call where
  binary : BinaryIdentity
  base : DependencySet
  deriving DecidableEq, Inhabited

def Call.channel (call : Call) (purpose : Purpose) : Channel :=
  .ofBinary purpose call.binary call.base

inductive Caller
  | called
  | compiled (compile : Channel)
  | linked (compile link : Channel)
  | returned (channels : BinaryChannels)
  | failed (error : BuildError)
  deriving DecidableEq, Inhabited

namespace Caller

def next : Caller → Option Purpose
  | .called => some .compile
  | .compiled _ => some .link
  | .linked _ _ => some .runtime
  | .returned _ | .failed _ => none

def receive (c : Channel) : Caller → Caller
  | .called => .compiled c
  | .compiled compile => .linked compile c
  | .linked compile link => .returned ⟨compile, link, c⟩
  | ended => ended

end Caller

/-- The registry and its callers by number. A caller takes three steps, for the compile, the link
and the runtime channel; between two of them others may take theirs. -/
structure Callers where
  registry : Registry
  caller : Nat → Caller

namespace Callers

def start (r : Registry) : Callers := ⟨r, fun _ => .called⟩

def move (s : Callers) (i : Nat) (c : Caller) : Callers :=
  { s with caller := fun j => if j = i then c else s.caller j }

@[simp] theorem registry_move (s : Callers) (i : Nat) (c : Caller) :
    (s.move i c).registry = s.registry := rfl

@[simp] theorem caller_move_self (s : Callers) (i : Nat) (c : Caller) :
    (s.move i c).caller i = c := by
  simp [move]

theorem caller_move_of_ne (s : Callers) {i j : Nat} (h : j ≠ i) (c : Caller) :
    (s.move i c).caller j = s.caller j := by
  simp [move, h]

def step (calls : Nat → Call) (s : Callers) (i : Nat) : Callers :=
  match (s.caller i).next with
  | none => s
  | some purpose =>
    match s.registry.obtain ((calls i).channel purpose) with
    | .ok (c, r) => { s.move i ((s.caller i).receive c) with registry := r }
    | .error e => s.move i (.failed e)

def run (calls : Nat → Call) (s : Callers) (schedule : List Nat) : Callers :=
  schedule.foldl (step calls) s

end Callers

end NativeBuild
