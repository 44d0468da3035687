import Mathlib
import NativeBuild.Proofs.ModuleMap.Grouping

namespace NativeBuild

def ComponentId.isUnknown : ComponentId → Bool
  | .unknown .. => true
  | _ => false

namespace ModuleMap

section Pairs

variable {pairs : List (String × String)}

def headersUnder (name : String) (pairs : List (String × String)) : List String :=
  (pairs.filter (·.1 == name)).map (·.2)

/-- A map for each name of the pairs, with all headers that have the name. -/
def grouped (pairs : List (String × String)) : List ModuleMap :=
  (pairs.map (·.1)).eraseDups.map fun name => ⟨name, headersUnder name pairs⟩

theorem names_grouped : (grouped pairs).map (·.name) = (pairs.map (·.1)).eraseDups := by
  simp [grouped, Function.comp_def]

theorem headers_of_mem_grouped {m : ModuleMap} (h : m ∈ grouped pairs) :
    m.headers = headersUnder m.name pairs := by
  obtain ⟨name, -, rfl⟩ := List.mem_map.1 h
  rfl

theorem eraseDups_concat (names : List String) (name : String) :
    (names ++ [name]).eraseDups =
      if name ∈ names then names.eraseDups else names.eraseDups ++ [name] := by
  rw [List.eraseDups_append]
  by_cases h : name ∈ names <;> simp [List.removeAll, List.eraseDups_cons, h]

theorem headersUnder_concat (name : String) (p : String × String) :
    headersUnder name (pairs ++ [p]) =
      headersUnder name pairs ++ if p.1 = name then [p.2] else [] := by
  by_cases h : p.1 = name <;> simp [headersUnder, h]

theorem headersUnder_eq_nil {name : String} (h : name ∉ pairs.map (·.1)) :
    headersUnder name pairs = [] := by
  rw [headersUnder, List.map_eq_nil_iff, List.filter_eq_nil_iff]
  intro p hp he
  exact h (List.mem_map.2 ⟨p, hp, by simpa using he⟩)

theorem addHeader_of_mem {names : List String} {name : String} (hn : names.Nodup)
    (h : name ∈ names) (header : String) (headers : String → List String) :
    addHeader name header (names.map fun n => ⟨n, headers n⟩) =
      names.map fun n => ⟨n, headers n ++ if name = n then [header] else []⟩ := by
  induction names with
  | nil => cases h
  | cons n names ih =>
    obtain ⟨hm, hn⟩ := List.nodup_cons.1 hn
    by_cases he : n = name
    · subst he
      have rest : ∀ k ∈ names, (⟨k, headers k⟩ : ModuleMap) =
          ⟨k, headers k ++ if n = k then [header] else []⟩ := by
        intro k hk
        have hne : n ≠ k := fun e => hm (e ▸ hk)
        simp [hne]
      simp only [List.map_cons, addHeader, if_true]
      rw [List.map_congr_left rest]
    · have ht : name ∈ names := (List.mem_cons.1 h).resolve_left (Ne.symm he)
      simp only [List.map_cons, addHeader, he, if_false, ih hn ht, Ne.symm he, List.append_nil]

theorem addHeader_of_not_mem {name : String} {maps : List ModuleMap}
    (h : name ∉ maps.map (·.name)) (header : String) :
    addHeader name header maps = maps ++ [⟨name, [header]⟩] := by
  induction maps with
  | nil => rfl
  | cons m maps ih =>
    obtain ⟨hne, ht⟩ := not_or.1 (mt List.mem_cons.2 h)
    simp only [addHeader, Ne.symm hne, if_false, ih ht, List.cons_append]

theorem addHeader_grouped (hn : (pairs.map (·.1)).eraseDups.Nodup) (p : String × String) :
    addHeader p.1 p.2 (grouped pairs) = grouped (pairs ++ [p]) := by
  unfold grouped
  simp only [List.map_append, List.map_cons, List.map_nil, eraseDups_concat, headersUnder_concat]
  by_cases h : p.1 ∈ pairs.map (·.1)
  · rw [if_pos h]
    exact addHeader_of_mem hn (List.mem_eraseDups.2 h) p.2 _
  · have hg : p.1 ∉ (grouped pairs).map (·.name) := by
      rwa [names_grouped, List.mem_eraseDups]
    have others : ∀ n ∈ (pairs.map (·.1)).eraseDups, (⟨n, headersUnder n pairs⟩ : ModuleMap) =
        ⟨n, headersUnder n pairs ++ if p.1 = n then [p.2] else []⟩ := by
      intro n hn
      have hne : p.1 ≠ n := fun e => h (e ▸ List.mem_eraseDups.1 hn)
      simp [hne]
    rw [if_neg h, List.map_append, ← List.map_congr_left others]
    simpa [headersUnder_eq_nil h, grouped] using addHeader_of_not_mem hg p.2

theorem addHeaders_eq_grouped (pairs : List (String × String)) :
    addHeaders pairs [] = grouped pairs := by
  induction pairs using List.reverseRecOn with
  | nil => rfl
  | append_singleton pairs p ih =>
    have hn : (pairs.map (·.1)).eraseDups.Nodup := by
      rw [← names_grouped, ← ih]
      exact nodup_addHeaders .nil
    rw [← addHeader_grouped hn p, ← ih]
    exact List.foldl_append

end Pairs

section Artifacts

variable {artifacts : List Artifact}

def headerPairs (artifacts : List Artifact) : List (String × String) :=
  artifacts.filterMap fun a => (classify a.producer).toOption.map fun name => (name, a.file.text)

theorem names_headerPairs (artifacts : List Artifact) : (headerPairs artifacts).map (·.1) =
    artifacts.filterMap fun a => (classify a.producer).toOption := by
  rw [headerPairs, List.map_filterMap]
  congr 1
  funext a
  cases (classify a.producer).toOption <;> rfl

theorem headersUnder_headerPairs (name : String) (artifacts : List Artifact) :
    headersUnder name (headerPairs artifacts) =
      (artifacts.filter fun a => (classify a.producer).toOption == some name).map
        (·.file.text) := by
  induction artifacts with
  | nil => rfl
  | cons a artifacts ih =>
    simp only [headersUnder, headerPairs, List.filterMap_cons, List.filter_cons] at ih ⊢
    cases (classify a.producer).toOption with
    | none => simpa using ih
    | some n => by_cases h : n = name <;> simpa [h] using ih

theorem aggregate_eq_match (artifacts : List Artifact) : aggregate artifacts =
    match artifacts.find? (·.producer.isUnknown) with
    | some a => .error (.unclassifiableProducer a.producer.displayName a.producer.kind)
    | none => .ok (grouped (headerPairs artifacts)) := by
  rw [← addHeaders_eq_grouped, aggregate]
  generalize ([] : List ModuleMap) = maps
  induction artifacts generalizing maps with
  | nil => rfl
  | cons a artifacts ih =>
    obtain ⟨id, file⟩ := a
    rw [List.foldlM_cons]
    cases id with
    | unknown kind displayName => rfl
    | module group name version => exact ih _
    | project path => exact ih _
    | libraryBinary projectPath library variant => exact ih _

theorem aggregate_eq_ok {maps : List ModuleMap} : aggregate artifacts = .ok maps ↔
    (∀ a ∈ artifacts, a.producer.isUnknown = false) ∧ grouped (headerPairs artifacts) = maps := by
  rw [aggregate_eq_match]
  cases h : artifacts.find? (·.producer.isUnknown) with
  | none => simpa using fun _ => h
  | some a =>
    have ha : a.producer.isUnknown = true := by simpa using List.find?_some h
    simp only [reduceCtorEq, false_iff]
    rintro ⟨known, -⟩
    rw [known a (List.mem_of_find?_eq_some h)] at ha
    cases ha

theorem aggregate_eq_error {e : BuildError} : aggregate artifacts = .error e ↔
    ∃ a, artifacts.find? (·.producer.isUnknown) = some a ∧
      e = .unclassifiableProducer a.producer.displayName a.producer.kind := by
  rw [aggregate_eq_match]
  cases artifacts.find? (·.producer.isUnknown) with
  | none => simp
  | some a => simp [eq_comm]

theorem file_of_header {maps : List ModuleMap} (h : aggregate artifacts = .ok maps) {m : ModuleMap}
    (hm : m ∈ maps) {header : String} (hh : header ∈ m.headers) :
    ∃ a ∈ artifacts, a.file.text = header := by
  obtain ⟨-, rfl⟩ := aggregate_eq_ok.1 h
  rw [headers_of_mem_grouped hm] at hh
  obtain ⟨p, hp, rfl⟩ := List.mem_map.1 hh
  obtain ⟨a, ha, e⟩ := List.mem_filterMap.1 (List.mem_filter.1 hp).1
  obtain ⟨name, -, rfl⟩ := Option.map_eq_some_iff.1 e
  exact ⟨a, ha, rfl⟩

theorem nodup_names_grouped : ((grouped (headerPairs artifacts)).map (·.name)).Nodup := by
  rw [← addHeaders_eq_grouped]
  exact nodup_addHeaders .nil

/-- Grouping fails exactly when some producer is of no known kind, and tells the first one. When it
succeeds there is one map for each module name, in the order in which the names first occur, and its
headers are the files of all artifacts with that name, in their order and as often as they occur,
whatever kind of producer the name came from. -/
theorem aggregate_grouped (artifacts : List Artifact) :
    ((∃ maps, aggregate artifacts = .ok maps) ↔
      ∀ a ∈ artifacts, a.producer.isUnknown = false) ∧
    (∀ maps, aggregate artifacts = .ok maps →
      (maps.map (·.name)).Nodup ∧
      maps.map (·.name) =
        (artifacts.filterMap fun a => (classify a.producer).toOption).eraseDups ∧
      ∀ m ∈ maps, m.headers =
        (artifacts.filter fun a => (classify a.producer).toOption == some m.name).map
          (·.file.text)) ∧
    ∀ e, aggregate artifacts = .error e ↔
      ∃ a, artifacts.find? (·.producer.isUnknown) = some a ∧
        e = .unclassifiableProducer a.producer.displayName a.producer.kind := by
  refine ⟨?_, fun maps hm => ?_, fun e => aggregate_eq_error⟩
  · constructor
    · rintro ⟨maps, hm⟩
      exact (aggregate_eq_ok.1 hm).1
    · intro known
      exact ⟨_, aggregate_eq_ok.2 ⟨known, rfl⟩⟩
  · obtain ⟨-, rfl⟩ := aggregate_eq_ok.1 hm
    refine ⟨nodup_names_grouped, ?_, fun m hm => ?_⟩
    · rw [names_grouped, names_headerPairs]
    · rw [headers_of_mem_grouped hm, headersUnder_headerPairs]

example : aggregate [⟨.module "org" "core" "1.0", ⟨"/a.h"⟩⟩, ⟨.project ":app", ⟨"/b.h"⟩⟩,
    ⟨.libraryBinary ":x" "core" "debug", ⟨"/a.h"⟩⟩, ⟨.project ":x:core", ⟨"/c.h"⟩⟩] =
    .ok [⟨"core", ["/a.h", "/a.h", "/c.h"]⟩, ⟨"app", ["/b.h"]⟩] := by
  cbv

end Artifacts

end ModuleMap

end NativeBuild
