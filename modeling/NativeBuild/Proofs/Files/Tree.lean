import Mathlib.Data.List.Infix
import NativeBuild.Files.Tree
import NativeBuild.Proofs.Except
import NativeBuild.Proofs.Path.Absolute

namespace NativeBuild

open NativeBuild.Path

namespace FileTree

variable {t : FileTree} {p : Path} {place dest : Place}

def isEntryName (name : String) : Bool :=
  name.utf8ByteSize ≤ maxNameSize && !name.toList.contains '\x00'

def step? (t : FileTree) (place : Place) (s : Step) : Option Place :=
  if t.entry? place = some .directory then
    match s with
    | .root => some []
    | .current => some place
    | .parent => some place.dropLast
    | .name name => if isEntryName name then some (place ++ [name]) else none
  else none

def walk? (t : FileTree) (place : Place) (steps : List Step) : Option Place :=
  steps.foldlM t.step? place

def origin (t : FileTree) (p : Path) : Place :=
  if p.isAbsolute then [] else t.workingPlace

@[simp] theorem walk?_nil (t : FileTree) (place : Place) : t.walk? place [] = some place := rfl

theorem walk?_cons (t : FileTree) (place : Place) (s : Step) (steps : List Step) :
    t.walk? place (s :: steps) = (t.step? place s).bind fun next => t.walk? next steps := rfl

theorem walk?_append (t : FileTree) (place : Place) (steps more : List Step) :
    t.walk? place (steps ++ more) = (t.walk? place steps).bind fun mid => t.walk? mid more :=
  List.foldlM_append

@[simp] theorem walk?_singleton (t : FileTree) (place : Place) (s : Step) :
    t.walk? place [s] = t.step? place s :=
  Option.bind_fun_some _

theorem isDirectory_of_step? {s : Step} (h : t.step? place s = some dest) :
    t.entry? place = some .directory := by
  by_contra hd
  simp [step?, hd] at h

theorem step?_name {name : String} : t.step? place (.name name) = some dest ↔
    t.entry? place = some .directory ∧ isEntryName name = true ∧ place ++ [name] = dest := by
  simp only [step?, Option.ite_none_right_eq_some, Option.some.injEq]

theorem isEntryName_of_walk? {steps : List Step} (h : t.walk? place steps = some dest)
    {name : String} (hn : .name name ∈ steps) : isEntryName name = true := by
  induction steps generalizing place with
  | nil => cases hn
  | cons s steps ih =>
    rw [walk?_cons, Option.bind_eq_some_iff] at h
    obtain ⟨next, hs, hw⟩ := h
    rcases List.mem_cons.1 hn with rfl | hn
    · by_contra hne
      simp [step?, isDirectory_of_step? hs, hne] at hs
    · exact ih hw hn

theorem enter_eq_ok_iff {segment : List Char} (nul : '\x00' ∉ segment) :
    t.enter place segment = .ok dest ↔ t.entry? place = some .directory ∧
      t.walk? place (ofSegment? segment).toList = some dest := by
  unfold enter
  split
  · rename_i he
    simp [he]
  · rename_i he
    simp [he]
  · rename_i he
    unfold ofSegment?
    by_cases idle : isIdle segment = true
    · simp [idle, he]
    · by_cases dots : segment = ['.', '.']
      · rw [if_neg idle, if_pos dots, if_neg idle, if_pos dots]
        simp [step?, he]
      · rw [if_neg idle, if_neg dots, if_neg idle, if_neg dots]
        by_cases long : maxNameSize < (String.ofList segment).utf8ByteSize
        · simp [step?, he, isEntryName, Nat.not_le.2 long, long]
        · simp [step?, he, isEntryName, long, nul, Nat.not_lt.1 long]

theorem foldlM_enter {body : List (List Char)} (nul : ∀ s ∈ body, '\x00' ∉ s) :
    body.foldlM t.enter place = .ok dest ↔ t.walk? place (body.filterMap ofSegment?) = some dest ∧
      (body.getLast?.any isIdle = true → t.entry? dest = some .directory) := by
  induction body using List.reverseRecOn generalizing dest with
  | nil => simp [pure, Except.pure]
  | append_singleton body s ih =>
    simp only [List.forall_mem_append, List.forall_mem_singleton] at nul
    have single : [s].filterMap ofSegment? = (ofSegment? s).toList := by
      cases h : ofSegment? s <;> simp [h]
    simp only [List.foldlM_append, List.foldlM_cons, List.foldlM_nil, bind_pure, bind_eq_ok,
      ih nul.1, enter_eq_ok_iff nul.2, List.filterMap_append, single, walk?_append,
      Option.bind_eq_some_iff, List.getLast?_concat, Option.any_some]
    constructor
    · rintro ⟨mid, ⟨hw, -⟩, hd, hs⟩
      refine ⟨⟨mid, hw, hs⟩, fun idle => ?_⟩
      rw [ofSegment?_idle idle] at hs
      cases hs
      exact hd
    · rintro ⟨⟨mid, hw, hs⟩, hd⟩
      -- Entering `s` asks for a directory, which a step from `mid` or the end of the path shows.
      have here : t.entry? mid = some .directory := by
        cases idle : isIdle s with
        | true =>
          rw [ofSegment?_idle idle] at hs
          cases hs
          exact hd idle
        | false =>
          obtain ⟨step, h⟩ := Option.isSome_iff_exists.1 (ofSegment?_isSome idle)
          rw [h, Option.toList_some, walk?_singleton] at hs
          exact isDirectory_of_step? hs
      exact ⟨mid, ⟨hw, fun _ => here⟩, here, hs⟩

def IsPathText (p : Path) : Prop :=
  p.text ≠ "" ∧ p.text.utf8ByteSize < maxPathSize

theorem pathText_eq_ok_iff {cs : List Char} :
    pathText p = .ok cs ↔ p.text.toList = cs ∧ '\x00' ∉ cs ∧ IsPathText p := by
  have empty : p.text.toList.isEmpty = true ↔ p.text = "" := by simp
  have nul : p.text.toList.contains '\x00' = true ↔ '\x00' ∈ p.text.toList := by simp
  simp only [pathText, IsPathText]
  grind

theorem nul_notMem_of_names {cs : List Char}
    (h : ∀ name, .name name ∈ trailOf cs → isEntryName name = true) : '\x00' ∉ cs := by
  intro nul
  obtain ⟨segment, hm, hn⟩ := Text.exists_mem_splitOn_iff.2 ⟨nul, (by decide : '\x00' ≠ '/')⟩
  cases hs : ofSegment? segment with
  | none =>
    have idle : isIdle segment = true := by
      by_contra idle
      have := ofSegment?_isSome (Bool.not_eq_true _ ▸ idle)
      simp [hs] at this
    simp [isIdle] at idle
    rcases idle with rfl | rfl <;> simp at hn
  | some s =>
    have step : s ∈ trailOf cs := List.mem_filterMap.2 ⟨segment, hm, hs⟩
    rw [← toList_label_ofSegment? hs] at hn
    rcases mem_trailOf step with rfl | ⟨name, rfl⟩
    · simp [Step.label] at hn
    · have := h name step
      simp [isEntryName, Step.label] at this hn
      exact this.2 hn

theorem nul_notMem_of_walk? {cs : List Char} (h : t.walk? place (trailOf cs) = some dest) :
    '\x00' ∉ cs :=
  nul_notMem_of_names fun _ => isEntryName_of_walk? h

def start (t : FileTree) (cs : List Char) : Place :=
  if cs.head? = some '/' then [] else t.workingPlace

theorem start_toList (t : FileTree) (p : Path) : t.start p.text.toList = t.origin p := by
  simp [start, origin, isAbsolute]

theorem follow_eq_ok_iff {cs : List Char} (nul : '\x00' ∉ cs) : t.follow cs = .ok place ↔
    t.walk? (t.start cs) (trailOf cs) = some place ∧
      ((cs.splitOn '/').getLast?.any isIdle = true → t.entry? place = some .directory) := by
  refine foldlM_enter fun s hs hn => nul ?_
  exact (Text.exists_mem_splitOn_iff.1 ⟨s, hs, hn⟩).1

theorem locate_eq_ok_iff : t.locate p = .ok place ↔ IsPathText p ∧
    t.walk? (t.origin p) p.trail = some place ∧
      (p.endsIdle = true → t.entry? place = some .directory) := by
  rw [locate, bind_eq_ok]
  simp only [pathText_eq_ok_iff]
  constructor
  · rintro ⟨_, ⟨rfl, nul, hp⟩, h⟩
    rw [follow_eq_ok_iff nul, start_toList] at h
    exact ⟨hp, h⟩
  · rintro ⟨hp, h⟩
    have nul := nul_notMem_of_walk? h.1
    refine ⟨_, ⟨rfl, nul, hp⟩, ?_⟩
    rw [follow_eq_ok_iff nul, start_toList]
    exact h

section Child

variable {name : String} (hs : (Step.name name).Spelled)
include hs

theorem walk?_child : t.walk? (t.origin (p.child name)) (p.child name).trail = some dest ↔
    ∃ above, t.walk? (t.origin p) p.trail = some above ∧ t.entry? above = some .directory ∧
      isEntryName name = true ∧ above ++ [name] = dest := by
  have trail : (p.child name).trail = p.trail ++ [.name name] := @trail_child p (.name name) hs
  have absolute : (p.child name).isAbsolute = p.isAbsolute :=
    @isAbsolute_child_of_spelled (.name name) hs p
  have start : t.origin (p.child name) = t.origin p := by rw [origin, origin, absolute]
  rw [trail, start, walk?_append, Option.bind_eq_some_iff]
  simp only [walk?_singleton, step?_name]

theorem locate_child : t.locate (p.child name) = .ok dest ↔
    (p.child name).text.utf8ByteSize < maxPathSize ∧
      t.walk? (t.origin (p.child name)) (p.child name).trail = some dest := by
  have file : (p.child name).endsIdle = false := @not_endsIdle_child (.name name) hs p
  have shown : (p.child name).text ≠ "" := text_child_ne (spelled_name_iff.1 hs).1 p
  simp [locate_eq_ok_iff, IsPathText, file, shown]

end Child

theorem lookup_eq_ok_iff {e : FileEntry} : t.lookup p = .ok e ↔
    ∃ place, t.locate p = .ok place ∧ t.entry? place = some e := by
  rw [lookup, bind_eq_ok]
  constructor
  · rintro ⟨place, h, he⟩
    refine ⟨place, h, ?_⟩
    split at he
    · rename_i hp
      cases he
      exact hp
    · cases he
  · rintro ⟨place, h, he⟩
    exact ⟨place, h, by rw [he]; rfl⟩

theorem readText_eq_ok_iff {text : String} :
    t.readText p = .ok text ↔ t.lookup p = .ok (.file text) := by
  rw [readText, bind_eq_ok]
  constructor
  · rintro ⟨e, h, he⟩
    cases e with
    | directory => cases he
    | file text' =>
      cases he
      exact h
  · intro h
    exact ⟨_, h, rfl⟩

theorem isDirectory_iff : t.isDirectory p = true ↔ t.lookup p = .ok .directory := by
  unfold isDirectory
  split
  · rename_i h
    simp [h]
  · rename_i h
    simpa using h

theorem isFile_iff : t.isFile p = true ↔ ∃ text, t.lookup p = .ok (.file text) := by
  unfold isFile
  split
  · rename_i text h
    simp [h]
  · rename_i h
    simpa using h

theorem lookup_file_iff {text : String} : t.lookup p = .ok (.file text) ↔ IsPathText p ∧
    p.endsIdle = false ∧
      ∃ place, t.walk? (t.origin p) p.trail = some place ∧ t.entry? place = some (.file text) := by
  simp only [lookup_eq_ok_iff, locate_eq_ok_iff]
  constructor
  · rintro ⟨place, ⟨hp, hw, hd⟩, he⟩
    have idle : p.endsIdle = false := by
      rw [Bool.eq_false_iff]
      intro h
      cases (hd h).symm.trans he
    exact ⟨hp, idle, place, hw, he⟩
  · rintro ⟨hp, idle, place, hw, he⟩
    exact ⟨place, ⟨hp, hw, by simp [idle]⟩, he⟩

theorem entry?_put {e : FileEntry} {other : Place} (hp : place ≠ []) :
    entry? (t.put place e) other = if other = place then some e else t.entry? other := by
  cases other with
  | nil => simp [hp.symm, entry?]
  | cons first rest => simp [put, entry?, Dict.get?_insert]

/-- A tree whose working directory is there, like all that it lies in. -/
structure Grounded (t : FileTree) : Prop where
  named : ∀ name ∈ t.workingPlace, (Step.name name).Spelled ∧ isEntryName name = true
  inits : ∀ place ∈ t.workingPlace.inits, t.entry? place = some .directory

theorem pathOf_eq {place : Place} (h : ∀ name ∈ place, (Step.name name).Spelled) :
    pathOf place = (⟨"/"⟩ : Path).extend (place.map .name) := by
  induction place using List.reverseRecOn with
  | nil => rfl
  | append_singleton front name ih =>
    rw [List.forall_mem_append, List.forall_mem_singleton] at h
    have relative : isAbsolute ⟨name⟩ = false := h.2.isAbsolute_label
    have hx : (pathOf front).extend [.name name] = (pathOf front).child name := rfl
    rw [List.map_append, extend_append, ← ih h.1, List.map_singleton, hx, child, join,
      if_neg (by simp [relative])]
    cases front with
    | nil => simp [pathOf, endsInSlash]
    | cons first front =>
      have slash : (pathOf (first :: front)).endsInSlash = false := by
        rw [ih h.1]
        exact not_endsInSlash_extend (by simpa using h.1) (by simp)
      have text : (pathOf (first :: front)).text ≠ "" := by simp [pathOf]
      rw [if_neg (by simp [slash, text]), pathOf, pathOf,
        String.intercalate_append_of_ne_nil (by simp) (by simp)]
      simp [String.append_assoc]

namespace Grounded

variable (h : t.Grounded)
include h

theorem directory (hp : place <+: t.workingPlace) : t.entry? place = some .directory :=
  h.inits place ((List.mem_inits _ _).2 hp)

theorem pathOf_workingPlace :
    pathOf t.workingPlace = (⟨"/"⟩ : Path).extend (t.workingPlace.map .name) :=
  pathOf_eq fun name hn => (h.named name hn).1

theorem spelled : ∀ s ∈ t.workingPlace.map Step.name, s.Spelled := by
  simpa using fun name hn => (h.named name hn).1

theorem isNormal : (pathOf t.workingPlace).IsNormal := by
  rw [h.pathOf_workingPlace]
  exact isNormal_extend h.spelled

theorem trail_pathOf : (pathOf t.workingPlace).trail = t.workingPlace.map .name := by
  rw [h.pathOf_workingPlace, trail_extend h.spelled, trail_root, List.nil_append]

theorem walk?_names (hp : place <+: t.workingPlace) :
    t.walk? [] (place.map .name) = some place := by
  induction place using List.reverseRecOn with
  | nil => rfl
  | append_singleton front name ih =>
    have hf := (List.prefix_append front [name]).trans hp
    have hn := (h.named name (hp.subset (by simp))).2
    simp [walk?_append, ih hf, step?, h.directory hf, hn]

theorem walk?_join (p : Path) :
    t.walk? (t.origin ((pathOf t.workingPlace).join p)) ((pathOf t.workingPlace).join p).trail =
      t.walk? (t.origin p) p.trail := by
  cases hp : p.isAbsolute with
  | true => simp [join, hp]
  | false =>
    have start : t.origin ((pathOf t.workingPlace).join p) = [] := by
      simp [origin, isAbsolute_join, h.isNormal.isAbsolute]
    have place : t.origin p = t.workingPlace := by simp [origin, hp]
    rw [start, place, trail_join hp, walk?_append, h.trail_pathOf, h.walk?_names List.prefix_rfl]
    rfl

theorem lookup_join_file {text : String} (hp : p.isAbsolute = false)
    (short : ((pathOf t.workingPlace).join p).text.utf8ByteSize < maxPathSize) :
    t.lookup ((pathOf t.workingPlace).join p) = .ok (.file text) ↔
      t.lookup p = .ok (.file text) := by
  have nonempty : ((pathOf t.workingPlace).join p).text ≠ "" :=
    text_ne_of_isAbsolute (by simp [isAbsolute_join, h.isNormal.isAbsolute])
  rw [lookup_file_iff, lookup_file_iff, h.walk?_join, endsIdle_join hp]
  constructor
  · rintro ⟨-, idle, walk⟩
    have text : p.text ≠ "" := by
      intro hp
      simp [endsIdle, hp, isIdle] at idle
    exact ⟨⟨text, Nat.lt_of_le_of_lt (Nat.le_trans (Nat.le_add_left _ _) (size_join hp).1) short⟩, idle, walk⟩
  · rintro ⟨-, idle, walk⟩
    exact ⟨⟨nonempty, short⟩, idle, walk⟩

end Grounded

end FileTree

end NativeBuild
