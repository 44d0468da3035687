import NativeBuild.Repository.Walk

namespace NativeBuild.Repository

def search (r : Repository) (channel : Channel) (pending : List Dependency) (nodes : List Node) :
    Except ResolutionFailure (List Node) :=
  match pending with
  | [] => .ok nodes
  | d :: rest =>
    match _ : r.find? d with
    | none => .error (.missingComponent d.text channel.name)
    | some c =>
      if _ : reached nodes c.id = true then r.search channel rest nodes
      else
        match select channel c with
        | .error e => .error e
        | .ok v => r.search channel (v.dependencies ++ rest) (nodes ++ [⟨c, v⟩])
termination_by ((r.unreached nodes).length, pending.length)
decreasing_by
  · exact Prod.Lex.right _ (Nat.lt_succ_self _)
  · exact Prod.Lex.left _ _ (unreached_lt ‹_› ‹_› v)

end NativeBuild.Repository
