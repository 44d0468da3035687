import NativeBuild.Dict

universe u v

namespace NativeBuild.Dict

variable {κ : Type u} {ν : Type v} [Ord κ] [Std.TransOrd κ]

theorem get?_foldl_insert {l : List (κ × ν)} (hl : l.Pairwise fun a b => compare a.1 b.1 = .lt)
    (d : Dict κ ν) (k : κ) :
    (l.foldl (fun d e => d.insert e.1 e.2) d).get? k =
      ((l.find? fun e => compare k e.1 == .eq).map (·.2)).or (d.get? k) := by
  induction l generalizing d with
  | nil => rfl
  | cons a l ih =>
    obtain ⟨ha, hl⟩ := List.pairwise_cons.1 hl
    rw [List.foldl_cons, ih hl, get?_insert]
    by_cases hk : compare k a.1 = .eq
    · have hnone : l.find? (fun e => compare k e.1 == .eq) = none := by
        refine List.find?_eq_none.2 fun e he => ?_
        simp [Std.TransCmp.lt_of_eq_of_lt hk (ha e he)]
      simp [hk, hnone]
    · simp [hk, beq_eq_false_iff_ne.2 hk]

theorem get?_merge (d other : Dict κ ν) (k : κ) :
    (d.merge other).get? k = (other.get? k).or (d.get? k) :=
  get?_foldl_insert other.ascending d k

@[simp] theorem merge_empty (d : Dict κ ν) : d.merge empty = d := rfl

theorem mem_insertAll {d : Dict κ ν} {l : List (κ × ν)} {e : κ × ν}
    (h : e ∈ (d.insertAll l).entries) : e ∈ d.entries ∨ e ∈ l := by
  induction l generalizing d with
  | nil => exact .inl h
  | cons a l ih =>
    rcases ih h with h | h
    · rcases mem_place h with rfl | h
      · exact .inr List.mem_cons_self
      · exact .inl h
    · exact .inr (List.mem_cons_of_mem a h)

theorem mem_ofList {l : List (κ × ν)} {e : κ × ν} (h : e ∈ (ofList l).entries) : e ∈ l :=
  (mem_insertAll h).resolve_left List.not_mem_nil

variable [Std.LawfulEqOrd κ]

theorem find?_eq_some_of_mem {l : List (κ × ν)} {k : κ} {v : ν}
    (hl : l.Pairwise fun a b => compare a.1 b.1 = .lt) (h : (k, v) ∈ l) :
    l.find? (fun e => compare k e.1 == .eq) = some (k, v) := by
  induction l with
  | nil => cases h
  | cons a l ih =>
    obtain ⟨ha, hl⟩ := List.pairwise_cons.1 hl
    rcases List.mem_cons.1 h with rfl | h
    · simp
    · have hgt : compare k a.1 = .gt := Std.OrientedCmp.gt_of_lt (ha _ h)
      simp [hgt, ih hl h]

theorem get?_eq_some_iff {d : Dict κ ν} {k : κ} {v : ν} :
    d.get? k = some v ↔ (k, v) ∈ d.entries := by
  constructor
  · intro h
    obtain ⟨e, he, rfl⟩ := Option.map_eq_some_iff.1 h
    have hk : compare k e.1 = .eq := by simpa using List.find?_some he
    rw [Std.LawfulEqOrd.compare_eq_iff_eq.1 hk]
    exact List.mem_of_find?_eq_some he
  · intro h
    rw [get?, find?_eq_some_of_mem d.ascending h]
    rfl

theorem mem_keys_iff {d : Dict κ ν} {k : κ} : k ∈ d.keys ↔ ∃ v, d.get? k = some v := by
  simp [keys, get?_eq_some_iff]

omit [Std.TransOrd κ] in
theorem nodup_keys (d : Dict κ ν) : d.keys.Nodup := by
  rw [keys, List.nodup_iff_pairwise_ne, List.pairwise_map]
  apply d.ascending.imp
  intro a b h e
  simp [e] at h

omit [Std.TransOrd κ] in
theorem nodup_entries (d : Dict κ ν) : d.entries.Nodup :=
  List.Pairwise.imp (fun h e => h (congrArg Prod.fst e)) (List.pairwise_map.1 d.nodup_keys)

theorem ext_get? {d e : Dict κ ν} (h : ∀ k, d.get? k = e.get? k) : d = e := by
  have perm : d.entries.Perm e.entries := by
    refine (List.perm_ext_iff_of_nodup d.nodup_entries e.nodup_entries).2 fun ⟨k, v⟩ => ?_
    rw [← get?_eq_some_iff, ← get?_eq_some_iff, h]
  have entries : d.entries = e.entries := by
    refine List.Perm.eq_of_pairwise (fun a b _ _ before after => ?_) d.ascending e.ascending perm
    cases after.symm.trans (Std.OrientedCmp.gt_of_lt before)
  cases d
  cases e
  congr

@[simp] theorem empty_merge (d : Dict κ ν) : empty.merge d = d := by
  apply ext_get?
  intro k
  rw [get?_merge, get?_empty, Option.or_none]

theorem entries_ofList {l : List (κ × ν)} (h : l.Pairwise fun a b => compare a.1 b.1 = .lt) :
    (ofList l).entries = l :=
  congrArg entries (empty_merge ⟨l, h⟩)

theorem mem_before_iff {d : Dict κ ν} {before after : List (κ × ν)} {e b : κ × ν}
    (h : d.entries = before ++ e :: after) :
    b ∈ before ↔ b ∈ d.entries ∧ compare b.1 e.1 = .lt := by
  have order := d.ascending
  rw [h, List.pairwise_append, List.pairwise_cons] at order
  obtain ⟨-, ⟨above, -⟩, below⟩ := order
  rw [h]
  constructor
  · intro hb
    exact ⟨List.mem_append_left _ hb, below b hb e List.mem_cons_self⟩
  · rintro ⟨hb, less⟩
    rcases List.mem_append.1 hb with hb | hb
    · exact hb
    · rcases List.mem_cons.1 hb with rfl | hb
      · rw [Std.ReflOrd.compare_self] at less
        cases less
      · rw [Std.OrientedCmp.gt_of_lt (above b hb)] at less
        cases less

theorem merge_assoc (d e f : Dict κ ν) : (d.merge e).merge f = d.merge (e.merge f) := by
  apply ext_get?
  intro k
  simp only [get?_merge, Option.or_assoc]

end NativeBuild.Dict
