import Mathlib.Data.List.Basic
import NativeBuild.ModuleMap

namespace NativeBuild.ModuleMap

def entries (maps : List ModuleMap) : List (String × String) :=
  maps.flatMap fun m => m.headers.map fun h => (m.name, h)

theorem names_addHeader (name header : String) (maps : List ModuleMap) :
    (addHeader name header maps).map (·.name) =
      if name ∈ maps.map (·.name) then maps.map (·.name) else maps.map (·.name) ++ [name] := by
  induction maps with
  | nil => rfl
  | cons m maps ih =>
    by_cases h : m.name = name
    · simp [addHeader, h]
    · simp only [addHeader, h, if_false, List.map_cons, ih, List.mem_cons, Ne.symm h, false_or]
      split <;> rfl

theorem nodup_addHeader {name header : String} {maps : List ModuleMap}
    (h : (maps.map (·.name)).Nodup) : ((addHeader name header maps).map (·.name)).Nodup := by
  rw [names_addHeader]
  split
  · exact h
  · rename_i hn
    simpa [List.nodup_append, h] using hn

theorem entries_addHeader (name header : String) (maps : List ModuleMap) :
    (entries (addHeader name header maps)).Perm ((name, header) :: entries maps) := by
  induction maps with
  | nil => exact .refl _
  | cons m maps ih =>
    by_cases h : m.name = name
    · simp only [entries, addHeader, h, if_true, List.flatMap_cons, List.map_append, List.map_cons,
        List.map_nil, List.append_assoc, List.singleton_append]
      exact List.perm_middle
    · simp only [addHeader, h, if_false]
      change (m.headers.map (fun h => (m.name, h)) ++ entries (addHeader name header maps)).Perm _
      exact (ih.append_left _).trans List.perm_middle

def addHeaders (pairs : List (String × String)) (maps : List ModuleMap) : List ModuleMap :=
  pairs.foldl (fun maps p => addHeader p.1 p.2 maps) maps

theorem nodup_addHeaders {pairs : List (String × String)} {maps : List ModuleMap}
    (h : (maps.map (·.name)).Nodup) : ((addHeaders pairs maps).map (·.name)).Nodup := by
  induction pairs generalizing maps with
  | nil => exact h
  | cons p pairs ih => exact ih (nodup_addHeader h)

theorem entries_addHeaders (pairs : List (String × String)) (maps : List ModuleMap) :
    (entries (addHeaders pairs maps)).Perm (pairs ++ entries maps) := by
  induction pairs generalizing maps with
  | nil => exact .refl _
  | cons p pairs ih =>
    have hp := (ih (addHeader p.1 p.2 maps)).trans
      ((entries_addHeader p.1 p.2 maps).append_left pairs)
    exact hp.trans List.perm_middle

theorem aggregate_eq {artifacts : List Artifact} {name : ComponentId → String}
    (h : ∀ a ∈ artifacts, classify a.producer = .ok (name a.producer)) :
    aggregate artifacts =
      .ok (addHeaders (artifacts.map fun a => (name a.producer, a.file.text)) []) := by
  suffices ∀ maps, artifacts.foldlM (m := Except BuildError)
      (fun maps a => return addHeader (← classify a.producer) a.file.text maps) maps =
      .ok (addHeaders (artifacts.map fun a => (name a.producer, a.file.text)) maps) from this []
  induction artifacts with
  | nil => exact fun maps => rfl
  | cons a artifacts ih =>
    intro maps
    rw [List.foldlM_cons, h a List.mem_cons_self]
    exact ih (fun b hb => h b (List.mem_cons_of_mem a hb)) _

end NativeBuild.ModuleMap
