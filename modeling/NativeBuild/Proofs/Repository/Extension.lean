import NativeBuild.Proofs.Repository.Failures
import NativeBuild.Proofs.Repository.View

namespace NativeBuild.Repository

open Relation

variable {r s : Repository} {channel : Channel}

def ExtendedBy (r s : Repository) : Prop :=
  ∀ d c, r.find? d = some c → s.find? d = some c

/-- No dependency that finds nothing in `r` finds anything in `s`. -/
def Complete (r s : Repository) : Prop :=
  ∀ d, r.find? d = none → s.find? d = none

theorem find?_add (r : Repository) (c : Component) (d : Dependency) :
    (r.add c).find? d = (r.find? d).or (if d.selects c.id then some c else none) := by
  rw [find?, add, List.find?_append, find?]
  congr 1
  cases h : d.selects c.id <;> simp [h]

theorem extendedBy_add (r : Repository) (c : Component) : r.ExtendedBy (r.add c) := by
  intro d c' h
  rw [find?_add, h, Option.some_or]

theorem complete_add {c : Component} (hidden : (∃ kind name, c.id = .unknown kind name) ∨
    ∃ other ∈ r.components, other.id = c.id) : r.Complete (r.add c) := by
  intro d h
  have unselected : d.selects c.id = false := by
    rcases hidden with ⟨kind, name, unknown⟩ | ⟨other, member, same⟩
    · rw [unknown]
      cases d <;> rfl
    · rw [← same]
      exact find?_eq_none_iff.1 h other member
  rw [find?_add, h, unselected]
  rfl

namespace ExtendedBy

variable {a b : List Dependency × List Node} {e : ResolutionFailure}

theorem move (h : r.ExtendedBy s) (m : r.Move channel a b) : s.Move channel a b := by
  cases m with
  | drop hd hc => exact .drop (h _ _ hd) hc
  | take hd hc hv => exact .take (h _ _ hd) hc hv

theorem moves (h : r.ExtendedBy s) (m : ReflTransGen (r.Move channel) a b) :
    ReflTransGen (s.Move channel) a b :=
  ReflTransGen.mono (fun _ _ => h.move) _ _ m

theorem stops (h : r.ExtendedBy s) (hs : r.Stops channel a e)
    (settled : (∀ d name, e ≠ .missingComponent d name) ∨ r.Complete s) : s.Stops channel a e := by
  cases hs with
  | @missing d rest nodes hd =>
    rcases settled with other | complete
    · exact absurd rfl (other _ _)
    · exact .missing (complete d hd)
  | unmatched hd hc hm => exact .unmatched (h _ _ hd) hc hm
  | ambiguous hd hc hm => exact .ambiguous (h _ _ hd) hc hm

theorem search_eq (h : r.ExtendedBy s) (pending : List Dependency) (nodes : List Node)
    (settled : (∀ d name, r.search channel pending nodes ≠ .error (.missingComponent d name)) ∨
      r.Complete s) : s.search channel pending nodes = r.search channel pending nodes := by
  cases hr : r.search channel pending nodes with
  | ok out => exact (search_moves (h.moves (moves_of_search_ok hr))).trans search_nil
  | error e =>
    obtain ⟨last, moves, stops⟩ := moves_of_search_error hr
    -- The search of `r` fails with `e`, so what is assumed of its failures holds of `e`.
    have reason : (∀ d name, e ≠ .missingComponent d name) ∨ r.Complete s := by
      refine settled.imp_left fun other d name he => other d name ?_
      rw [hr, he]
    exact (search_moves (h.moves moves)).trans (search_stops (h.stops stops reason))

theorem resolve_eq (h : r.ExtendedBy s) (q : Request)
    (settled : (∀ d name, r.resolve q ≠ .error (.missingComponent d name)) ∨ r.Complete s) :
    s.resolve q = r.resolve q := by
  have nodes : s.nodes q.channel = r.nodes q.channel := by
    rw [nodes_eq_search, nodes_eq_search]
    refine h.search_eq _ _ (settled.imp_left fun other d name he => other d name ?_)
    rw [← nodes_eq_search] at he
    exact bind_eq_error.2 (.inl he)
  rw [resolve, resolve, nodes]

end ExtendedBy

/-- A component added to a repository changes no answer but that of a request for which a component
was missing, and not even this one if no dependency can select the component, or if the repository
has its identifier already. -/
theorem resolve_add (r : Repository) (c : Component) (q : Request) :
    ((∀ d name, r.resolve q ≠ .error (.missingComponent d name)) →
      (r.add c).resolve q = r.resolve q) ∧
    ((∃ kind name, c.id = .unknown kind name) ∨ (∃ other ∈ r.components, other.id = c.id) →
      (r.add c).resolve q = r.resolve q) :=
  ⟨fun other => (extendedBy_add r c).resolve_eq q (.inl other),
    fun hidden => (extendedBy_add r c).resolve_eq q (.inr (complete_add hidden))⟩

theorem resolve_add_behind :
    (entwined.add ⟨.module "com" "Json" "2.0", []⟩).resolve
        (entwinedCompile.artifactView ModuleMap.view) =
      .ok [⟨.module "org" "Json" "1.0", ⟨"/json.h"⟩⟩] ∧
    (empty.add ⟨.unknown "Archive" "Json", []⟩).resolve entwinedCompile.request =
      .error (.missingComponent "Json" "swiftCompileDebug") := by
  constructor
  · have before : entwined.resolve (entwinedCompile.artifactView ModuleMap.view) =
        .ok [⟨.module "org" "Json" "1.0", ⟨"/json.h"⟩⟩] := by cbv
    refine ((resolve_add entwined _ _).1 fun d name h => ?_).trans before
    cases before.symm.trans h
  · refine ((resolve_add empty _ _).2 (.inl ⟨_, _, rfl⟩)).trans ?_
    cbv

end NativeBuild.Repository
