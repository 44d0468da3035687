universe u v

namespace NativeBuild

/-- A finite map: its entries in ascending key order, each key once. -/
structure Dict (κ : Type u) (ν : Type v) [Ord κ] where
  entries : List (κ × ν)
  ascending : entries.Pairwise fun a b => compare a.1 b.1 = .lt
  deriving DecidableEq

namespace Dict

variable {κ : Type u} {ν : Type v} [Ord κ]

def empty : Dict κ ν := ⟨[], .nil⟩

instance : Inhabited (Dict κ ν) := ⟨empty⟩

def place (k : κ) (v : ν) : List (κ × ν) → List (κ × ν)
  | [] => [(k, v)]
  | e :: rest =>
    match compare k e.1 with
    | .lt => (k, v) :: e :: rest
    | .eq => (k, v) :: rest
    | .gt => e :: place k v rest

theorem mem_place {k : κ} {v : ν} {l : List (κ × ν)} {e : κ × ν} (h : e ∈ place k v l) :
    e = (k, v) ∨ e ∈ l := by
  induction l with
  | nil => simpa [place] using h
  | cons a l ih =>
    unfold place at h
    split at h
    · simpa using h
    · rcases List.mem_cons.1 h with h | h
      · exact .inl h
      · exact .inr (List.mem_cons_of_mem _ h)
    · rcases List.mem_cons.1 h with h | h
      · exact .inr (h ▸ List.mem_cons_self)
      · exact (ih h).imp_right (List.mem_cons_of_mem _)

theorem place_ascending [Std.TransOrd κ] (k : κ) (v : ν) (l : List (κ × ν))
    (h : l.Pairwise fun a b => compare a.1 b.1 = .lt) :
    (place k v l).Pairwise fun a b => compare a.1 b.1 = .lt := by
  induction l with
  | nil => exact List.pairwise_singleton _ _
  | cons a l ih =>
    obtain ⟨ha, hl⟩ := List.pairwise_cons.1 h
    unfold place
    split
    · rename_i hk
      refine List.pairwise_cons.2 ⟨fun b hb => ?_, h⟩
      rcases List.mem_cons.1 hb with rfl | hb
      · exact hk
      · exact Std.TransCmp.lt_trans hk (ha b hb)
    · rename_i hk
      exact List.pairwise_cons.2 ⟨fun b hb => Std.TransCmp.lt_of_eq_of_lt hk (ha b hb), hl⟩
    · rename_i hk
      refine List.pairwise_cons.2 ⟨fun b hb => ?_, ih hl⟩
      rcases mem_place hb with rfl | hb
      · exact Std.OrientedCmp.lt_of_gt hk
      · exact ha b hb

def insert [Std.TransOrd κ] (d : Dict κ ν) (k : κ) (v : ν) : Dict κ ν :=
  ⟨place k v d.entries, place_ascending k v d.entries d.ascending⟩

def get? (d : Dict κ ν) (k : κ) : Option ν :=
  (d.entries.find? fun e => compare k e.1 == .eq).map (·.2)

@[simp] theorem get?_empty (k : κ) : (empty : Dict κ ν).get? k = none := rfl

theorem find?_place [Std.TransOrd κ] (k k' : κ) (v : ν) (l : List (κ × ν)) :
    (place k v l).find? (fun e => compare k' e.1 == .eq) =
      if compare k' k = .eq then some (k, v) else l.find? fun e => compare k' e.1 == .eq := by
  induction l with
  | nil => by_cases h : compare k' k = .eq <;> simp [place, h]
  | cons a l ih =>
    unfold place
    split
    · by_cases h : compare k' k = .eq <;> simp [List.find?_cons, h]
    · rename_i hk
      by_cases h : compare k' k = .eq
      · simp [h]
      · have : compare k' a.1 ≠ .eq := fun ha =>
          h (Std.TransCmp.eq_trans ha (Std.OrientedCmp.eq_symm hk))
        simp [h, beq_eq_false_iff_ne.2 this]
    · rename_i hk
      by_cases h : compare k' k = .eq
      · have : compare k' a.1 = .gt := Std.TransCmp.gt_of_eq_of_gt h hk
        simp [h, this, ih]
      · by_cases ha : compare k' a.1 = .eq <;> simp_all

theorem get?_insert [Std.TransOrd κ] (d : Dict κ ν) (k k' : κ) (v : ν) :
    (d.insert k v).get? k' = if compare k' k = .eq then some v else d.get? k' := by
  simp only [get?, insert, find?_place]
  split <;> rfl

def contains (d : Dict κ ν) (k : κ) : Bool :=
  (d.get? k).isSome

def size (d : Dict κ ν) : Nat :=
  d.entries.length

def isEmpty (d : Dict κ ν) : Bool :=
  d.entries.isEmpty

def keys (d : Dict κ ν) : List κ :=
  d.entries.map (·.1)

def values (d : Dict κ ν) : List ν :=
  d.entries.map (·.2)

def insertAll [Std.TransOrd κ] (d : Dict κ ν) (entries : List (κ × ν)) : Dict κ ν :=
  entries.foldl (fun d e => d.insert e.1 e.2) d

def ofList [Std.TransOrd κ] (entries : List (κ × ν)) : Dict κ ν :=
  empty.insertAll entries

def merge [Std.TransOrd κ] (d other : Dict κ ν) : Dict κ ν :=
  d.insertAll other.entries

end Dict

end NativeBuild
