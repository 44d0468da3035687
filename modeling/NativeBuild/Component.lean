namespace NativeBuild

/-- What identifies the producer of an artifact. -/
inductive ComponentId
  | module (group name version : String)
  | project (path : String)
  | libraryBinary (projectPath library variant : String)
  | unknown (kind displayName : String)
  deriving DecidableEq, Inhabited

namespace ComponentId

def displayName : ComponentId → String
  | .module group name version =>
    (if group = "" then "" else group ++ ":") ++ name
      ++ (if version = "" then "" else ":" ++ version)
  | .project path => "project " ++ path
  | .libraryBinary projectPath library variant =>
    s!"project {projectPath} library {library} variant {variant}"
  | .unknown _ displayName => displayName

def kind : ComponentId → String
  | .module .. => "ModuleComponentIdentifier"
  | .project .. => "ProjectComponentIdentifier"
  | .libraryBinary .. => "LibraryBinaryIdentifier"
  | .unknown kind _ => kind

def rank : ComponentId → Nat
  | .module .. => 0
  | .project .. => 1
  | .libraryBinary .. => 2
  | .unknown .. => 3

def fields : ComponentId → List String
  | .module group name version => [group, name, version]
  | .project path => [path]
  | .libraryBinary projectPath library variant => [projectPath, library, variant]
  | .unknown kind displayName => [kind, displayName]

instance : Ord ComponentId where
  compare := compareLex (compareOn rank) (compareOn fields)

instance : Std.TransOrd ComponentId :=
  inferInstanceAs (Std.TransCmp (compareLex (compareOn rank) (compareOn fields)))

theorem eq_of_rank_of_fields {a b : ComponentId} (rank : a.rank = b.rank)
    (fields : a.fields = b.fields) : a = b := by
  cases a <;> cases b <;> simp_all [ComponentId.rank, ComponentId.fields]

instance : Std.LawfulEqOrd ComponentId where
  eq_of_compare {a b} h := by
    have both : compare a.rank b.rank = .eq ∧ compare a.fields b.fields = .eq :=
      Ordering.then_eq_eq.1 h
    exact eq_of_rank_of_fields (Std.LawfulEqOrd.eq_of_compare both.1)
      (Std.LawfulEqOrd.eq_of_compare both.2)

def sort (ids : List ComponentId) : List ComponentId :=
  ids.mergeSort fun a b => (compare a b).isLE

theorem pairwise_sort (ids : List ComponentId) :
    (sort ids).Pairwise fun a b => (compare a b).isLE := by
  apply List.pairwise_mergeSort
  · intro a b c
    exact Std.TransCmp.isLE_trans
  · intro a b
    rw [Std.OrientedOrd.eq_swap (a := b)]
    cases compare a b <;> rfl

/-- However components are arranged, there is one ascending arrangement of them. -/
theorem eq_sort_iff {l ids : List ComponentId} :
    l = sort ids ↔ l.Perm ids ∧ l.Pairwise fun a b => (compare a b).isLE := by
  constructor
  · rintro rfl
    exact ⟨List.mergeSort_perm _ _, pairwise_sort ids⟩
  · rintro ⟨perm, ascending⟩
    have same : l.Perm (sort ids) := perm.trans (List.mergeSort_perm ids _).symm
    apply same.eq_of_pairwise _ ascending (pairwise_sort ids)
    intro a b _ _ ab ba
    exact Std.LawfulEqOrd.eq_of_compare (Std.OrientedCmp.isLE_antisymm ab ba)

end ComponentId

def lastSegment (path : String) : String :=
  String.ofList ((path.toList.splitOn ':').getLastD [])

/-- The module name comes from the producer and never from a file name, so all artifacts of one
component land in one module map. -/
def ComponentId.moduleName? : ComponentId → Option String
  | .module _ name _ => some name
  | .project path => some (lastSegment path)
  | .libraryBinary _ library _ => some library
  | .unknown .. => none

end NativeBuild
