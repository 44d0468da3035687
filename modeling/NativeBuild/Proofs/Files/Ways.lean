import NativeBuild.Proofs.Files.Changes

/-! The way of a path: the places that its steps lead through. Creating a directory with all that it
lies in succeeds exactly if there is no file on the way, and then every place on the way is a
directory. So it depends on the places of a tree alone, and not on how a path is spelled, what was
created and when. -/

namespace NativeBuild

open NativeBuild.Path

def Path.Step.lead (place : Place) : Step → Place
  | .root => []
  | .current => place
  | .parent => place.dropLast
  | .name n => place ++ [n]

/-- The places that steps lead through, the first and the last one included. -/
def way (place : Place) : List Step → List Place
  | [] => [place]
  | s :: steps => place :: way (s.lead place) steps

def reach (place : Place) (steps : List Step) : Place :=
  steps.foldl Step.lead place

section Way

variable {place : Place} {steps front : List Step}

theorem mem_way_start (place : Place) (steps : List Step) : place ∈ way place steps := by
  cases steps <;> simp [way]

theorem reach_mem_way (place : Place) (steps : List Step) :
    reach place steps ∈ way place steps := by
  induction steps generalizing place with
  | nil => simp [way, reach]
  | cons s steps ih => exact List.mem_cons_of_mem _ (ih _)

theorem reach_concat (place : Place) (steps : List Step) (s : Step) :
    reach place (steps ++ [s]) = s.lead (reach place steps) := by
  simp [reach]

theorem way_concat (place : Place) (steps : List Step) (s : Step) :
    way place (steps ++ [s]) = way place steps ++ [reach place (steps ++ [s])] := by
  induction steps generalizing place with
  | nil => rfl
  | cons t steps ih =>
    rw [List.cons_append, way, ih]
    rfl

theorem way_subset_way (h : front <+: steps) : way place front ⊆ way place steps := by
  obtain ⟨rest, rfl⟩ := h
  induction rest using List.reverseRecOn with
  | nil => simp
  | append_singleton rest s ih =>
    rw [← List.append_assoc, way_concat]
    exact fun _ hm => List.mem_append_left _ (ih hm)

end Way

namespace FileTree

variable {t t' made : FileTree} {p q : Path} {place next : Place} {steps : List Step}

def way (t : FileTree) (p : Path) : List Place :=
  NativeBuild.way (t.origin p) p.trail

def dest (t : FileTree) (p : Path) : Place :=
  reach (t.origin p) p.trail

theorem way_eq (home : t'.workingPlace = t.workingPlace) (p : Path) : t'.way p = t.way p := by
  rw [way, way, origin, origin, home]

theorem dest_eq (home : t'.workingPlace = t.workingPlace) (p : Path) : t'.dest p = t.dest p := by
  rw [dest, dest, origin, origin, home]

theorem step?_eq_some_iff {s : Step} : t.step? place s = some next ↔
    t.entry? place = some .directory ∧ (∀ name, s = .name name → isEntryName name = true) ∧
      s.lead place = next := by
  cases s <;> simp [step?, Step.lead]

theorem reach_of_walk? (h : t.walk? place steps = some next) : reach place steps = next := by
  induction steps generalizing place with
  | nil => exact Option.some.inj h
  | cons s steps ih =>
    rw [walk?_cons, Option.bind_eq_some_iff] at h
    obtain ⟨next, hs, hw⟩ := h
    obtain ⟨-, -, rfl⟩ := step?_eq_some_iff.1 hs
    exact ih hw

theorem walk?_directory_iff :
    (t.walk? place steps = some (reach place steps) ∧
        t.entry? (reach place steps) = some .directory) ↔
      (∀ name, .name name ∈ steps → isEntryName name = true) ∧
        ∀ mid ∈ NativeBuild.way place steps, t.entry? mid = some .directory := by
  induction steps generalizing place with
  | nil => simp [NativeBuild.way, reach]
  | cons s steps ih =>
    have split : reach place (s :: steps) = reach (s.lead place) steps := rfl
    rw [split, walk?_cons, Option.bind_eq_some_iff]
    constructor
    · rintro ⟨⟨next, hs, hw⟩, hd⟩
      obtain ⟨here, name, rfl⟩ := step?_eq_some_iff.1 hs
      obtain ⟨names, rest⟩ := ih.1 ⟨hw, hd⟩
      simp only [List.mem_cons, NativeBuild.way, forall_eq_or_imp]
      exact ⟨fun n hn => hn.elim (fun e => name n e.symm) (names n), here, rest⟩
    · rintro ⟨names, hd⟩
      simp only [NativeBuild.way, List.forall_mem_cons] at hd
      obtain ⟨hw, there⟩ := ih.2 ⟨fun n hn => names n (List.mem_cons_of_mem s hn), hd.2⟩
      have first : t.step? place s = some (s.lead place) := by
        refine step?_eq_some_iff.2 ⟨hd.1, ?_, rfl⟩
        rintro name rfl
        exact names name List.mem_cons_self
      exact ⟨⟨_, first, hw⟩, there⟩

theorem isDirectory_iff_way : t.isDirectory p = true ↔ IsPathText p ∧
    (∀ name, .name name ∈ p.trail → isEntryName name = true) ∧
      ∀ mid ∈ t.way p, t.entry? mid = some .directory := by
  rw [isDirectory_iff, lookup_eq_ok_iff]
  simp only [locate_eq_ok_iff, way]
  rw [← walk?_directory_iff]
  constructor
  · rintro ⟨place, ⟨shown, hw, -⟩, hd⟩
    obtain rfl := reach_of_walk? hw
    exact ⟨shown, hw, hd⟩
  · rintro ⟨shown, hw, hd⟩
    exact ⟨_, ⟨shown, hw, fun _ => hd⟩, hd⟩

section Child

variable {name : String} (hs : (Step.name name).Spelled)
include hs

theorem origin_child (t : FileTree) (p : Path) : t.origin (p.child name) = t.origin p := by
  have absolute : (p.child name).isAbsolute = p.isAbsolute :=
    @isAbsolute_child_of_spelled (.name name) hs p
  rw [origin, origin, absolute]

theorem dest_child (t : FileTree) (p : Path) : t.dest (p.child name) = t.dest p ++ [name] := by
  have trail : (p.child name).trail = p.trail ++ [.name name] := @trail_child p (.name name) hs
  rw [dest, origin_child hs, trail, reach_concat]
  rfl

theorem way_child (t : FileTree) (p : Path) :
    t.way (p.child name) = t.way p ++ [t.dest p ++ [name]] := by
  have trail : (p.child name).trail = p.trail ++ [.name name] := @trail_child p (.name name) hs
  rw [way, origin_child hs, trail, way_concat, reach_concat]
  rfl

end Child

/-- Nothing is in the way of a path: its names are proper, and no file is on the way. -/
structure Clear (t : FileTree) (p : Path) : Prop where
  names : ∀ name, .name name ∈ p.trail → isEntryName name = true
  home : t.entry? (t.origin p) = some .directory
  free : ∀ mid ∈ t.way p, ∀ text, t.entry? mid ≠ some (.file text)

theorem way_subset (trail : q.trail <+: p.trail) (absolute : q.isAbsolute = p.isAbsolute) :
    t.way q ⊆ t.way p := by
  have start : t.origin q = t.origin p := by rw [origin, origin, absolute]
  rw [way, way, start]
  exact way_subset_way trail

theorem Clear.of_front (h : Clear t p) (trail : q.trail <+: p.trail)
    (absolute : q.isAbsolute = p.isAbsolute) : Clear t q where
  names name hn := h.names name (trail.subset hn)
  home := by
    rw [origin, absolute]
    exact h.home
  free mid hm := h.free mid (way_subset trail absolute hm)

theorem clear_child_iff {name : String} (hs : (Step.name name).Spelled) :
    Clear t (p.child name) ↔ Clear t p ∧ isEntryName name = true ∧
      ∀ text, t.entry? (t.dest p ++ [name]) ≠ some (.file text) := by
  have trail : (p.child name).trail = p.trail ++ [.name name] := @trail_child p (.name name) hs
  have split : t.way (p.child name) = t.way p ++ [t.dest p ++ [name]] := way_child hs t p
  constructor
  · intro h
    have free := h.free
    rw [split, List.forall_mem_append, List.forall_mem_singleton] at free
    refine ⟨⟨fun n hn => h.names n ?_, ?_, free.1⟩, h.names name ?_, free.2⟩
    · rw [trail]
      exact List.mem_append_left _ hn
    · rw [← origin_child hs]
      exact h.home
    · simp [trail]
  · rintro ⟨h, proper, free⟩
    refine ⟨fun n hn => ?_, ?_, ?_⟩
    · rw [trail, List.mem_append, List.mem_singleton] at hn
      rcases hn with hn | hn
      · exact h.names n hn
      · cases hn
        exact proper
    · rw [origin_child hs]
      exact h.home
    · rw [split, List.forall_mem_append, List.forall_mem_singleton]
      exact ⟨h.free, free⟩

theorem Clear.grown {paths : List Path} (h : Clear t p) (grown : Grown paths t made) :
    Clear made p where
  names := h.names
  home := by
    rw [grown.keeps.origin]
    exact grown.keeps.directory _ h.home
  free mid hm text he := by
    rw [way_eq grown.home] at hm
    rcases grown.entry mid with same | ⟨-, directory, -⟩
    · exact h.free mid hm text (same.symm.trans he)
    · cases directory.symm.trans he

section Follow

theorem enter_error {segment : List Char} {e : FileError}
    (names : ∀ name, ofSegment? segment = some (.name name) → isEntryName name = true)
    (free : ∀ text, t.entry? place ≠ some (.file text))
    (h : t.enter place segment = .error e) : e = .notFound := by
  unfold enter at h
  split at h
  · cases h
    rfl
  · rename_i he
    exact absurd he (free _)
  · unfold ofSegment? at names
    by_cases idle : isIdle segment = true
    · simp [idle] at h
    · by_cases dots : segment = ['.', '.']
      · rw [if_neg idle, if_pos dots] at h
        cases h
      · simp only [if_neg idle, if_neg dots, Option.some.injEq, Step.name.injEq, forall_eq',
          isEntryName, Bool.and_eq_true, decide_eq_true_eq] at names
        simp [idle, dots, Nat.not_lt.2 names.1] at h

theorem foldlM_enter_error {body : List (List Char)} {e : FileError} (nul : ∀ s ∈ body, '\x00' ∉ s)
    (names : ∀ name, .name name ∈ body.filterMap ofSegment? → isEntryName name = true)
    (free : ∀ mid ∈ NativeBuild.way place (body.filterMap ofSegment?), ∀ text,
      t.entry? mid ≠ some (.file text))
    (h : body.foldlM t.enter place = .error e) : e = .notFound := by
  induction body generalizing place with
  | nil => cases h
  | cons s body ih =>
    rw [List.foldlM_cons, bind_eq_error] at h
    rw [List.forall_mem_cons] at nul
    have steps : (s :: body).filterMap ofSegment? =
        (ofSegment? s).toList ++ body.filterMap ofSegment? := by
      cases hs : ofSegment? s <;> simp [hs]
    rw [steps] at names free
    rcases h with h | ⟨next, hn, h⟩
    · refine enter_error (fun name hs => names name ?_) (free place (mem_way_start _ _)) h
      simp [hs]
    · refine ih nul.2 (fun name hm => names name (List.mem_append_right _ hm)) ?_ h
      obtain ⟨-, hw⟩ := (enter_eq_ok_iff nul.1).1 hn
      -- An idle segment leads nowhere; any other leads to the next place on the way.
      cases hs : ofSegment? s with
      | none =>
        rw [hs] at free hw
        cases hw
        exact free
      | some step =>
        rw [hs] at free hw
        obtain ⟨-, -, rfl⟩ := step?_eq_some_iff.1 ((walk?_singleton t place step).symm.trans hw)
        exact fun mid hm => free mid (List.mem_cons_of_mem _ hm)

theorem isDirectory_of_createDirectory (h : t.createDirectory p = .ok t') :
    t'.isDirectory p = true := by
  obtain ⟨place, shown, -, hw, free, rfl⟩ := createDirectory_eq_ok h
  exact isDirectory_iff.2 (lookup_eq_ok_iff.2 ⟨place, locate_put shown hw free⟩)

namespace Clear

variable (h : Clear t p)
include h

theorem pathText (shown : IsPathText p) : FileTree.pathText p = .ok p.text.toList :=
  pathText_eq_ok_iff.2 ⟨rfl, nul_notMem_of_names h.names, shown⟩

theorem follow_error {e : FileError} (shown : IsPathText p)
    (hf : t.follow (withoutEndSlashes p.text.toList) = .error e) : e = .notFound := by
  have nul := nul_notMem_withoutEndSlashes (nul_notMem_of_names h.names)
  have start := start_withoutEndSlashes t shown.1
  have trail := trailOf_withoutEndSlashes p
  rw [trailOf] at trail
  refine foldlM_enter_error (fun s hs hn => nul ?_) ?_ ?_ hf
  · exact (Text.exists_mem_splitOn_iff.1 ⟨s, hs, hn⟩).1
  · rw [trail]
    exact h.names
  · rw [trail]
    change ∀ mid ∈ NativeBuild.way (t.start _) p.trail, _
    rw [start]
    exact h.free

theorem createDirectory_cases (shown : IsPathText p) :
    t.createDirectory p = .error .notFound ∨ (∃ t', t.createDirectory p = .ok t') ∨
      t.createDirectory p = .error .alreadyExists ∧ t.isDirectory p = true := by
  have reads := h.pathText shown
  cases hf : t.follow (withoutEndSlashes p.text.toList) with
  | error e =>
    obtain rfl := h.follow_error shown hf
    exact .inl (bind_eq_error.2 (.inr ⟨_, reads, bind_eq_error.2 (.inl hf)⟩))
  | ok place =>
    right
    obtain ⟨hw, -⟩ :=
      (follow_eq_ok_iff (nul_notMem_withoutEndSlashes (nul_notMem_of_names h.names))).1 hf
    rw [start_withoutEndSlashes t shown.1, trailOf_withoutEndSlashes] at hw
    cases he : t.entry? place with
    | none =>
      refine .inl ⟨t.put place .directory, bind_eq_ok.2 ⟨_, reads, bind_eq_ok.2 ⟨place, hf, ?_⟩⟩⟩
      rw [he]
      rfl
    | some e =>
      have directory : t.entry? place = some .directory := by
        cases e with
        | directory => exact he
        -- What stands at the end of the way is no file, as nothing is in the way.
        | file text =>
          obtain rfl := reach_of_walk? hw
          exact absurd he (h.free _ (reach_mem_way _ _) text)
      refine .inr ⟨bind_eq_error.2 (.inr ⟨_, reads, bind_eq_error.2 (.inr ⟨place, hf, ?_⟩)⟩), ?_⟩
      · rw [he]
        rfl
      · rw [isDirectory_iff, lookup_eq_ok_iff]
        exact ⟨place, locate_eq_ok_iff.2 ⟨shown, hw, fun _ => directory⟩, directory⟩

theorem createDirectory_ne_notFound (shown : IsPathText p)
    (tidy : p.trail = [] ∨ p.endsIdle = false)
    (hw : t.walk? (t.origin p) p.trail = some place) :
    t.createDirectory p ≠ .error .notFound := by
  intro missing
  have nul := nul_notMem_of_names h.names
  have hf : t.follow (withoutEndSlashes p.text.toList) = .ok place := by
    rw [follow_eq_ok_iff (nul_notMem_withoutEndSlashes nul), start_withoutEndSlashes t shown.1,
      trailOf_withoutEndSlashes]
    refine ⟨hw, fun idle => ?_⟩
    rcases tidy with none_left | file
    · rw [none_left, walk?_nil, Option.some.injEq] at hw
      rw [← hw]
      exact h.home
    · rw [withoutEndSlashes_eq_self file] at idle
      cases idle.symm.trans file
  obtain ⟨_, reads, hm⟩ := (bind_eq_error.1 missing).resolve_left (by simp [h.pathText shown])
  rw [h.pathText shown, Except.ok.injEq] at reads
  subst reads
  rw [bind_eq_error, hf] at hm
  obtain ⟨_, ⟨⟩, hm⟩ := hm.resolve_left (by simp)
  split at hm <;> cases hm

end Clear

end Follow

section Ensure

theorem run_createDirectory_ok (h : t.createDirectory p = .ok t') :
    (FileSystem.createDirectory p : StateM FileTree _).run t = (.ok (), t') := by
  change attempt (·.createDirectory p) t = _
  rw [attempt, h]

theorem run_createDirectory_error {e : FileError} (h : t.createDirectory p = .error e) :
    (FileSystem.createDirectory p : StateM FileTree _).run t = (.error e, t) := by
  change attempt (·.createDirectory p) t = _
  rw [attempt, h]

theorem run_isDirectory (p : Path) (t : FileTree) :
    (FileSystem.isDirectory p : StateM FileTree _).run t = (t.isDirectory p, t) := rfl

theorem run_unlessDirectory (p : Path) (e : FileError) (t : FileTree) :
    (do return if ← FileSystem.isDirectory p then Except.ok () else .error e : StateM FileTree _).run t =
      (if t.isDirectory p then .ok () else .error e, t) :=
  run_bind_of_run (run_isDirectory p t)

theorem run_ensureDirectory (p : Path) (t : FileTree) :
    (FileSystem.ensureDirectory p : StateM FileTree _).run t =
      match t.createDirectory p with
      | .ok t' => (.ok (), t')
      | .error e => (if t.isDirectory p then .ok () else .error e, t) := by
  rw [FileSystem.ensureDirectory]
  cases h : t.createDirectory p with
  | ok t' => exact run_bind_of_run (run_createDirectory_ok h)
  | error e =>
    exact (run_bind_of_run (run_createDirectory_error h)).trans (run_unlessDirectory p e t)

theorem run_ensureChain_cons (hp : p.text ≠ "") (above : List Path) (t : FileTree) :
    (FileSystem.ensureChain (p :: above) : StateM FileTree _).run t =
      match t.createDirectory p with
      | .error .notFound =>
        match (FileSystem.ensureChain above : StateM FileTree _).run t with
        | (.ok (), made) => (FileSystem.ensureDirectory p : StateM FileTree _).run made
        | (.error e, made) => (.error e, made)
      | _ => (FileSystem.ensureDirectory p : StateM FileTree _).run t := by
  rw [FileSystem.ensureChain, if_neg hp, run_ensureDirectory]
  cases h : t.createDirectory p with
  | ok t' => exact run_bind_of_run (run_createDirectory_ok h)
  | error e =>
    have first := run_createDirectory_error h
    cases e with
    | notFound =>
      refine (run_bind_of_run first).trans ?_
      cases hm : (FileSystem.ensureChain above : StateM FileTree _).run t with
      | mk r made =>
        cases r with
        | ok => exact run_bind_of_run hm
        | error e => exact run_bind_of_run hm
    | _ => exact (run_bind_of_run first).trans (run_unlessDirectory p _ t)

theorem isDirectory_of_ensureDirectory
    (h : (FileSystem.ensureDirectory p : StateM FileTree _).run t = (.ok (), made)) :
    made.isDirectory p = true := by
  rw [run_ensureDirectory] at h
  cases hc : t.createDirectory p with
  | ok t' =>
    rw [hc] at h
    cases h
    exact isDirectory_of_createDirectory hc
  | error e =>
    rw [hc] at h
    by_cases hd : t.isDirectory p = true
    · rw [hd] at h
      cases h
      exact hd
    · rw [Bool.not_eq_true] at hd
      rw [hd] at h
      cases h

theorem isDirectory_of_ensureChain (hp : p.text ≠ "") {above : List Path}
    (h : (FileSystem.ensureChain (p :: above) : StateM FileTree _).run t = (.ok (), made)) :
    made.isDirectory p = true := by
  rw [run_ensureChain_cons hp] at h
  split at h
  · split at h
    · exact isDirectory_of_ensureDirectory h
    · cases h
  · exact isDirectory_of_ensureDirectory h

theorem Clear.walk?_of_parent? (h : Clear t p) (hne : p.trail ≠ []) (hq : p.parent? = some q)
    (hd : q.text ≠ "" → t.isDirectory q = true) :
    ∃ place, t.walk? (t.origin p) p.trail = some place := by
  obtain ⟨s, trail⟩ : ∃ s, p.trail = q.trail ++ [s] :=
    ⟨_, by rw [trail_parent? hq, List.dropLast_concat_getLast hne]⟩
  have start : t.origin q = t.origin p := by rw [origin, origin, isAbsolute_parent? hq]
  obtain ⟨above, hw, directory⟩ :
      ∃ above, t.walk? (t.origin p) q.trail = some above ∧ t.entry? above = some .directory := by
    by_cases empty : q.text = ""
    · have none_left : q.trail = [] := by simp [Path.trail, empty]
      exact ⟨t.origin p, by rw [none_left, walk?_nil], h.home⟩
    · obtain ⟨above, hl, directory⟩ := lookup_eq_ok_iff.1 (isDirectory_iff.1 (hd empty))
      rw [← start]
      exact ⟨above, (locate_eq_ok_iff.1 hl).2.1, directory⟩
  refine ⟨s.lead above, ?_⟩
  rw [trail, walk?_append, hw, Option.bind_some, walk?_singleton]
  refine step?_eq_some_iff.2 ⟨directory, ?_, rfl⟩
  rintro name rfl
  exact h.names name (by simp [trail])

theorem Clear.ensureDirectory (h : Clear t p) (shown : IsPathText p)
    (there : t.createDirectory p ≠ .error .notFound) :
    ∃ made, (FileSystem.ensureDirectory p : StateM FileTree _).run t = (.ok (), made) := by
  rw [run_ensureDirectory]
  rcases h.createDirectory_cases shown with missing | ⟨t', new⟩ | ⟨old, hd⟩
  · exact absurd missing there
  · exact ⟨t', by rw [new]⟩
  · exact ⟨t, by simp only [old, hd, if_true]⟩

theorem Clear.ensureChain_of_there (h : Clear t p) (short : p.text.utf8ByteSize < maxPathSize)
    (there : p.text ≠ "" → t.createDirectory p ≠ .error .notFound) (above : List Path) :
    ∃ made, (FileSystem.ensureChain (p :: above) : StateM FileTree _).run t = (.ok (), made) := by
  by_cases empty : p.text = ""
  · rw [FileSystem.ensureChain, if_pos empty]
    exact ⟨t, rfl⟩
  · rw [run_ensureChain_cons empty]
    split
    · rename_i missing
      exact absurd missing (there empty)
    · exact h.ensureDirectory ⟨empty, short⟩ (there empty)

theorem Clear.ensureChain {n : Nat} (h : Clear t p) (short : p.text.utf8ByteSize < maxPathSize)
    (tidy : p.trail = [] ∨ p.endsIdle = false) (hn : p.trail.length ≤ n) :
    ∃ made, (FileSystem.ensureChain (p.ascend n) : StateM FileTree _).run t = (.ok (), made) := by
  induction n generalizing p with
  | zero =>
    refine h.ensureChain_of_there short (fun empty => ?_) []
    have none_left : p.trail = [] := List.eq_nil_of_length_eq_zero (Nat.le_zero.1 hn)
    exact h.createDirectory_ne_notFound ⟨empty, short⟩ tidy (by rw [none_left, walk?_nil])
  | succ n ih =>
    by_cases missing : p.text ≠ "" ∧ t.createDirectory p = .error .notFound
    · obtain ⟨empty, missing⟩ := missing
      have shown : IsPathText p := ⟨empty, short⟩
      have hne : p.trail ≠ [] := by
        intro none_left
        exact h.createDirectory_ne_notFound shown tidy (by rw [none_left, walk?_nil]) missing
      obtain ⟨q, hq⟩ := exists_parent? hne
      have trail : q.trail = p.trail.dropLast := trail_parent? hq
      have hc : Clear t q := h.of_front (trail ▸ List.dropLast_prefix _) (isAbsolute_parent? hq)
      have fits : q.text.utf8ByteSize < maxPathSize :=
        Nat.lt_of_le_of_lt (size_le_size (prefix_text_parent? hq)) short
      obtain ⟨made, run⟩ := ih hc fits (endsIdle_parent? hq) (by simp [trail]; omega)
      have chain : p.ascend (n + 1) = p :: q.ascend n := by rw [ascend, hq]
      rw [chain, run_ensureChain_cons empty, missing]
      simp only [run]
      -- What is made above the path puts nothing in its way, and lets it lead somewhere.
      have grown := Grows.ensureChain (List.Subset.refl (q.ascend n)) t
      rw [run] at grown
      have hc := h.grown grown
      obtain ⟨above, ha⟩ := ascend_eq_cons q n
      rw [ha] at run
      obtain ⟨place, hw⟩ :=
        hc.walk?_of_parent? hne hq fun empty => isDirectory_of_ensureChain empty run
      exact hc.ensureDirectory shown (hc.createDirectory_ne_notFound shown tidy hw)
    · refine h.ensureChain_of_there short ?_ _
      exact fun empty there => missing ⟨empty, there⟩

structure Made (p : Path) (t made : FileTree) : Prop where
  home : made.workingPlace = t.workingPlace
  root : made.entries.get? [] = t.entries.get? []
  way : ∀ mid ∈ t.way p, made.entry? mid = some .directory
  frame : ∀ place, place ∉ t.way p → made.entry? place = t.entry? place

theorem mem_way_of_mem_ancestors {a : Path} (ha : a ∈ p.ancestors) (hl : t.locate a = .ok place) :
    place ∈ t.way p := by
  obtain ⟨trail, absolute, -⟩ := mem_ascend ha
  obtain rfl := reach_of_walk? (locate_eq_ok_iff.1 hl).2.1
  exact way_subset trail absolute (reach_mem_way _ _)

section Made

variable (hp : p.text ≠ "")
variable (run : (FileSystem.ensureDirectories p : StateM FileTree _).run t = (.ok (), made))
include hp run

theorem isDirectory_of_ensureDirectories : made.isDirectory p = true := by
  obtain ⟨above, ha⟩ := ascend_eq_cons p p.steps.length
  rw [FileSystem.ensureDirectories, ancestors, ha] at run
  exact isDirectory_of_ensureChain hp run

theorem made_of_ensureDirectories : Made p t made := by
  have grown := Grows.ensureDirectories p t
  rw [run] at grown
  have start : made.way p = t.way p := way_eq grown.home p
  obtain ⟨-, -, directories⟩ := isDirectory_iff_way.1 (isDirectory_of_ensureDirectories hp run)
  rw [start] at directories
  refine ⟨grown.home, grown.root, directories, fun place hm => ?_⟩
  rcases grown.entry place with same | ⟨-, -, a, ha, -, hl⟩
  · exact same
  · have on_way := mem_way_of_mem_ancestors ha hl
    rw [start] at on_way
    exact absurd on_way hm

theorem clear_of_ensureDirectories : Clear t p := by
  have grown := Grows.ensureDirectories p t
  rw [run] at grown
  have directories := (made_of_ensureDirectories hp run).way
  obtain ⟨-, names, -⟩ := isDirectory_iff_way.1 (isDirectory_of_ensureDirectories hp run)
  refine ⟨names, ?_, fun mid hm text he => ?_⟩
  · have there := directories _ (mem_way_start _ _)
    rcases grown.entry (t.origin p) with same | ⟨-, -, a, ha, apart, -⟩
    · exact same.symm.trans there
    · have start : t.origin a = t.origin p := by rw [origin, origin, (mem_ascend ha).2.1]
      exact absurd start.symm apart
  · rcases grown.entry mid with same | ⟨free, -⟩
    · cases he.symm.trans (same.symm.trans (directories mid hm))
    · cases he.symm.trans free

end Made

/-- A directory is made or found, with all that it lies in, exactly if its path is not too long and
nothing is in the way. -/
theorem ensureDirectories_iff (hp : p.text ≠ "") (file : p.endsIdle = false) :
    (∃ made, (FileSystem.ensureDirectories p : StateM FileTree _).run t = (.ok (), made)) ↔
      p.text.utf8ByteSize < maxPathSize ∧ Clear t p := by
  constructor
  · rintro ⟨made, run⟩
    obtain ⟨shown, -⟩ := isDirectory_iff_way.1 (isDirectory_of_ensureDirectories hp run)
    exact ⟨shown.2, clear_of_ensureDirectories hp run⟩
  · rintro ⟨short, h⟩
    exact h.ensureChain short (.inr file) p.trail_length_le

end Ensure

end FileTree

end NativeBuild
