import Mathlib.Data.List.Induction
import NativeBuild.Channel.Requests
import NativeBuild.Proofs.Channel.Callers
import NativeBuild.Proofs.Text.Bytes

namespace NativeBuild

theorem Channel.eq_iff {c d : Channel} :
    c = d ↔ c.name = d.name ∧ c.base = d.base ∧ c.attributes = d.attributes ∧
      c.consumable = d.consumable := by
  cases c
  cases d
  simp

section Request

variable {r : Registry} {c d : Channel} {e : BuildError}

theorem run_obtainChannel (c : Channel) (r : Registry) : (obtainChannel c).run.run r =
    match r.obtain c with
    | .ok (given, r') => (.ok given, r')
    | .error e => (.error e, r) := by
  change (match r.obtain c with
    | .ok (given, r') => do set r'; return given
    | .error e => throw e : Registering Channel).run.run r = _
  cases r.obtain c <;> rfl

theorem registerChannel_eq (c : Channel) :
    registerChannel c = (fun _ => ()) <$> obtainChannel c := by
  refine ExceptT.ext (StateT.ext fun r => ?_)
  rw [ExceptT.run_map, StateT.run_map, run_obtainChannel, Registry.obtain_eq]
  refine (run_registerChannel c r).trans ?_
  cases r.register c <;> rfl

theorem granted_iff (c : Channel) (r : Registry) :
    (∃ given, ((obtainChannel c).run.run r).1 = .ok given) ↔
      ∀ bound, r.get? c.name = some bound → bound = c := by
  rw [run_obtainChannel]
  cases ho : r.obtain c with
  | ok answer => exact ⟨fun _ => (Registry.obtained ho).free, fun _ => ⟨answer.1, rfl⟩⟩
  | error e =>
    obtain ⟨-, x, hx, ne⟩ := Registry.obtain_error ho
    constructor
    · rintro ⟨given, ⟨⟩⟩
    · intro same
      exact absurd (same x hx) ne

theorem get?_of_granted (h : ((obtainChannel c).run.run r).1 = .ok d) :
    ((obtainChannel c).run.run r).2.get? c.name = some d := by
  rw [run_obtainChannel] at h ⊢
  cases ho : r.obtain c with
  | ok answer =>
    rw [ho] at h
    cases h
    rw [(Registry.obtained ho).given]
    exact (Registry.obtained ho).binds
  | error e =>
    rw [ho] at h
    cases h

theorem unchanged_of_refused (h : ((obtainChannel c).run.run r).1 = .error e) :
    e = .channelConflict c.name ∧ ((obtainChannel c).run.run r).2 = r := by
  rw [run_obtainChannel] at h ⊢
  cases ho : r.obtain c with
  | ok answer =>
    rw [ho] at h
    cases h
  | error e' =>
    rw [ho] at h
    cases h
    exact ⟨(Registry.obtain_error ho).1, rfl⟩

end Request

namespace Registry

variable {r r' : Registry} {c d : Channel} {cs : List Channel}

/-- Is every name bound to the channel of the first request for it, and no other name bound? -/
def BindsFirst (r : Registry) (cs : List Channel) : Prop :=
  ∀ name, r.get? name = cs.find? (·.name == name)

theorem bindsFirst_empty : BindsFirst .empty [] := fun _ => rfl

theorem BindsFirst.obtain (h : r.BindsFirst cs) (ho : r.obtain c = .ok (d, r')) :
    r'.BindsFirst (cs ++ [c]) := by
  intro name
  rw [(obtained ho).bound, List.find?_append, ← h name]
  by_cases hn : name = c.name
  · subst hn
    cases hr : r.get? c.name with
    | none => simp
    | some x => simp [(obtained ho).free x hr]
  · have other : (c.name == name) = false := beq_eq_false_iff_ne.2 (Ne.symm hn)
    simp [hn, other]

theorem BindsFirst.refuse (h : r.BindsFirst cs) (hx : r.get? c.name = some d) :
    r.BindsFirst (cs ++ [c]) := by
  intro name
  rw [List.find?_append, ← h name]
  by_cases hn : name = c.name
  · rw [hn, hx]
    rfl
  · have other : (c.name == name) = false := beq_eq_false_iff_ne.2 (Ne.symm hn)
    simp [other]

theorem BindsFirst.step (h : r.BindsFirst cs) (c : Channel) :
    ((obtainChannel c).run.run r).2.BindsFirst (cs ++ [c]) := by
  rw [run_obtainChannel]
  cases ho : r.obtain c with
  | ok answer => exact h.obtain ho
  | error e =>
    obtain ⟨-, x, hx, -⟩ := obtain_error ho
    exact h.refuse hx

theorem BindsFirst.name_eq (h : r.BindsFirst cs) {name : String} (hd : r.get? name = some d) :
    d.name = name := by
  rw [h name] at hd
  simpa using List.find?_some hd

theorem BindsFirst.mem_keys_iff (h : r.BindsFirst cs) {name : String} :
    name ∈ r.keys ↔ ∃ c ∈ cs, c.name = name := by
  rw [Dict.mem_keys_iff, h name, ← Option.isSome_iff_exists, List.find?_isSome]
  simp

end Registry

section Run

variable {c d : Channel} {cs : List Channel}

theorem run_obtainChannels_append (cs ds : List Channel) (r : Registry) :
    (obtainChannels (cs ++ ds)).run r =
      let before := (obtainChannels cs).run r
      let after := (obtainChannels ds).run before.2
      (before.1 ++ after.1, after.2) := by
  rw [obtainChannels, List.mapM_append]
  rfl

theorem run_obtainChannels_concat (cs : List Channel) (c : Channel) (r : Registry) :
    (obtainChannels (cs ++ [c])).run r =
      let before := (obtainChannels cs).run r
      let after := (obtainChannel c).run.run before.2
      (before.1 ++ [after.1], after.2) := by
  rw [run_obtainChannels_append]
  rfl

theorem bindsFirst_run (cs : List Channel) :
    ((obtainChannels cs).run .empty).2.BindsFirst cs := by
  induction cs using List.reverseRecOn with
  | nil => exact Registry.bindsFirst_empty
  | append_singleton cs c ih =>
    rw [run_obtainChannels_concat]
    exact ih.step c

theorem bound_later (more : List Channel) {name : String}
    (h : ((obtainChannels cs).run .empty).2.get? name = some d) :
    ((obtainChannels (cs ++ more)).run .empty).2.get? name = some d := by
  rw [bindsFirst_run] at h
  rw [bindsFirst_run, List.find?_append, h]
  rfl

end Run

/-- After any requests: a name is bound to the channel of the first request that used it, and stays
bound to it; an entry is under the name of its channel; the next request is answered, with what its
name is bound to, exactly if the name is free or bound to an equal channel, and it is refused
without a trace otherwise; the names that were used are listed once each, in the order of their
bytes. -/
theorem requests_bind_first (cs : List Channel) :
    let answers := ((obtainChannels cs).run .empty).1
    let r := ((obtainChannels cs).run .empty).2
    (∀ name, r.get? name = cs.find? (·.name == name)) ∧
    (∀ more name bound, r.get? name = some bound →
      ((obtainChannels (cs ++ more)).run .empty).2.get? name = some bound) ∧
    (∀ e ∈ r.entries, e.1 = e.2.name) ∧
    (∀ c, ∃ answer after, (obtainChannels (cs ++ [c])).run .empty = (answers ++ [answer], after) ∧
      ((∃ given, answer = .ok given) ↔ ∀ bound, r.get? c.name = some bound →
        bound.name = c.name ∧ bound.base = c.base ∧ bound.attributes = c.attributes ∧
          bound.consumable = c.consumable) ∧
      (∀ given, answer = .ok given → after.get? c.name = some given) ∧
      (∀ e, answer = .error e → e = .channelConflict c.name ∧ after = r)) ∧
    (∀ name, name ∈ r.keys ↔ ∃ c ∈ cs, c.name = name) ∧
    r.keys.Pairwise fun a b => utf8 a < utf8 b := by
  intro answers r
  have first : r.BindsFirst cs := bindsFirst_run cs
  refine ⟨first, fun more name bound => bound_later more, ?_, ?_, fun name => first.mem_keys_iff, ?_⟩
  · intro ⟨name, d⟩ he
    exact (first.name_eq (Dict.get?_eq_some_iff.2 he)).symm
  · intro c
    refine ⟨_, _, run_obtainChannels_concat cs c .empty, ?_, fun given => get?_of_granted,
      fun e => unchanged_of_refused⟩
    simp only [← Channel.eq_iff]
    exact granted_iff c r
  · rw [Dict.keys, List.pairwise_map]
    exact r.ascending.imp compare_eq_lt_iff_utf8.1

end NativeBuild
