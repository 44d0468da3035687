import NativeBuild.Proofs.Files.Tree

namespace NativeBuild

open NativeBuild.Path

namespace FileTree

variable {t t' t'' : FileTree} {p : Path} {place dest : Place} {e : FileEntry} {text : String}

structure Keeps (t t' : FileTree) : Prop where
  home : t'.workingPlace = t.workingPlace
  directory : ∀ place, t.entry? place = some .directory → t'.entry? place = some .directory

namespace Keeps

theorem refl (t : FileTree) : Keeps t t :=
  ⟨rfl, fun _ hd => hd⟩

theorem trans (h : Keeps t t') (h' : Keeps t' t'') : Keeps t t'' :=
  ⟨h'.home.trans h.home, fun place hd => h'.directory place (h.directory place hd)⟩

variable (h : Keeps t t')
include h

theorem step? {s : Step} (hs : t.step? place s = some dest) : t'.step? place s = some dest := by
  have hd := isDirectory_of_step? hs
  simpa only [FileTree.step?, hd, h.directory place hd] using hs

theorem walk? {steps : List Step} (hw : t.walk? place steps = some dest) :
    t'.walk? place steps = some dest := by
  induction steps generalizing place with
  | nil => exact hw
  | cons s steps ih =>
    rw [walk?_cons, Option.bind_eq_some_iff] at hw ⊢
    obtain ⟨next, hs, hw⟩ := hw
    exact ⟨next, h.step? hs, ih hw⟩

theorem origin (p : Path) : t'.origin p = t.origin p := by
  rw [FileTree.origin, FileTree.origin, h.home]

theorem locate (hl : t.locate p = .ok place) : t'.locate p = .ok place := by
  obtain ⟨hp, hw, hd⟩ := locate_eq_ok_iff.1 hl
  refine locate_eq_ok_iff.2 ⟨hp, ?_, fun idle => h.directory place (hd idle)⟩
  rw [h.origin]
  exact h.walk? hw

theorem isDirectory (hd : t.isDirectory p = true) : t'.isDirectory p = true := by
  rw [isDirectory_iff, lookup_eq_ok_iff] at hd ⊢
  obtain ⟨place, hl, he⟩ := hd
  exact ⟨place, h.locate hl, h.directory place he⟩

theorem grounded (hg : t.Grounded) : t'.Grounded where
  named := by
    rw [h.home]
    exact hg.named
  inits := by
    rw [h.home]
    exact fun place hp => h.directory place (hg.inits place hp)

end Keeps

theorem isDirectory_eq_of_keeps (h : Keeps t t') (h' : Keeps t' t) :
    t'.isDirectory = t.isDirectory := by
  funext p
  exact Bool.eq_iff_iff.2 ⟨h'.isDirectory, h.isDirectory⟩

theorem ne_nil_of_ne_directory (hp : t.entry? place ≠ some .directory) : place ≠ [] := by
  rintro rfl
  exact hp rfl

theorem keeps_put (hp : t.entry? place ≠ some .directory) : Keeps t (t.put place e) where
  home := rfl
  directory other hd := by
    rw [entry?_put (ne_nil_of_ne_directory hp), if_neg]
    · exact hd
    · rintro rfl
      exact hp hd

theorem get?_put_nil (hp : place ≠ []) :
    (t.put place e).entries.get? [] = t.entries.get? [] := by
  simp [put, Dict.get?_insert, hp.symm]

theorem withoutEndSlashes_append (cs : List Char) : ∃ n,
    cs = withoutEndSlashes cs ++ List.replicate n '/' ∧ (cs ≠ [] → withoutEndSlashes cs ≠ []) := by
  have slashes {ending : List Char} (h : ∀ c ∈ ending, c = '/') :
      ending = List.replicate ending.length '/' :=
    List.eq_replicate_iff.2 ⟨rfl, h⟩
  have split : cs.rdropWhile (· == '/') ++ cs.rtakeWhile (· == '/') = cs :=
    List.rdropWhile_append_rtakeWhile
  have taken : ∀ c ∈ cs.rtakeWhile (· == '/'), c = '/' := by
    intro c hc
    simpa using List.mem_rtakeWhile_imp hc
  unfold withoutEndSlashes
  split
  · rename_i none_left
    change cs.rdropWhile (· == '/') = [] at none_left
    rw [none_left, List.nil_append] at split
    have rest : ∀ c ∈ cs.drop 1, c = '/' := by
      intro c hc
      rw [← split] at hc
      exact taken c (List.mem_of_mem_drop hc)
    refine ⟨(cs.drop 1).length, ?_, by simp⟩
    rw [← slashes rest, List.take_append_drop]
  · rename_i left
    refine ⟨(cs.rtakeWhile (· == '/')).length, ?_, fun _ => left⟩
    rw [← slashes taken]
    exact split.symm

theorem trailOf_append_replicate (cs : List Char) (n : Nat) :
    trailOf (cs ++ List.replicate n '/') = trailOf cs := by
  have only (n : Nat) : trailOf (List.replicate n '/') = [] := by
    induction n with
    | zero => rfl
    | succ n ih => rw [List.replicate_succ, trailOf_slash, ih]
  cases n with
  | zero => simp
  | succ n => rw [List.replicate_succ, trailOf_append_slash, only, List.append_nil]

theorem withoutEndSlashes_eq_self {cs : List Char}
    (h : (cs.splitOn '/').getLast?.any isIdle = false) : withoutEndSlashes cs = cs := by
  have last : cs.rdropWhile (· == '/') = cs := by
    rw [List.rdropWhile_eq_self_iff]
    intro hne slash
    have ending : cs.dropLast ++ ['/'] = cs := by
      rw [← beq_iff_eq.1 slash, List.dropLast_concat_getLast]
    rw [← ending, List.splitOn_append_cons_self] at h
    simp [isIdle] at h
  unfold withoutEndSlashes
  split
  · rename_i none_left
    change cs.rdropWhile (· == '/') = [] at none_left
    obtain rfl : cs = [] := last.symm.trans none_left
    rfl
  · exact last

theorem nul_notMem_withoutEndSlashes {cs : List Char} (h : '\x00' ∉ cs) :
    '\x00' ∉ withoutEndSlashes cs := by
  obtain ⟨n, split, -⟩ := withoutEndSlashes_append cs
  rw [split] at h
  exact fun nul => h (List.mem_append_left _ nul)

theorem trailOf_withoutEndSlashes (p : Path) :
    trailOf (withoutEndSlashes p.text.toList) = p.trail := by
  obtain ⟨n, split, -⟩ := withoutEndSlashes_append p.text.toList
  conv_rhs => rw [Path.trail, split, trailOf_append_replicate]

theorem start_withoutEndSlashes (t : FileTree) (hp : p.text ≠ "") :
    t.start (withoutEndSlashes p.text.toList) = t.origin p := by
  obtain ⟨n, split, shown⟩ := withoutEndSlashes_append p.text.toList
  rw [← start_toList, FileTree.start, FileTree.start]
  conv_rhs => rw [split, List.head?_append_of_ne_nil _ (shown (by simpa using hp))]

theorem isDirectory_of_follow {cs : List Char} (nul : '\x00' ∉ cs)
    (h : t.follow cs = .ok place) : t.entry? (t.start cs) = some .directory := by
  obtain ⟨hw, hd⟩ := (follow_eq_ok_iff nul).1 h
  cases ht : trailOf cs with
  | nil =>
    rw [ht, walk?_nil, Option.some.injEq] at hw
    rw [hw]
    apply hd
    by_contra idle
    exact trailOf_ne_nil (Bool.not_eq_true _ ▸ idle) ht
  | cons s steps =>
    rw [ht, walk?_cons, Option.bind_eq_some_iff] at hw
    obtain ⟨next, first, -⟩ := hw
    exact isDirectory_of_step? first

theorem createDirectory_eq_ok (h : t.createDirectory p = .ok t') :
    ∃ place, IsPathText p ∧ t.entry? (t.origin p) = some .directory ∧
      t.walk? (t.origin p) p.trail = some place ∧ t.entry? place = none ∧
        t' = t.put place .directory := by
  rw [createDirectory, bind_eq_ok] at h
  obtain ⟨cs, hcs, h⟩ := h
  obtain ⟨rfl, nul, hp⟩ := pathText_eq_ok_iff.1 hcs
  obtain ⟨place, hf, h⟩ := bind_eq_ok.1 h
  have nul := nul_notMem_withoutEndSlashes nul
  have home := isDirectory_of_follow nul hf
  obtain ⟨hw, -⟩ := (follow_eq_ok_iff nul).1 hf
  rw [start_withoutEndSlashes t hp.1] at home hw
  rw [trailOf_withoutEndSlashes] at hw
  refine ⟨place, hp, home, hw, ?_⟩
  split at h
  · cases h
  · rename_i free
    cases h
    exact ⟨free, rfl⟩

theorem locate_put (shown : IsPathText p) (hw : t.walk? (t.origin p) p.trail = some place)
    (free : t.entry? place = none) :
    locate (t.put place .directory) p = .ok place ∧
      entry? (t.put place .directory) place = some .directory := by
  have hd : t.entry? place ≠ some .directory := by simp [free]
  have keeps : Keeps t (t.put place .directory) := keeps_put hd
  have made : entry? (t.put place .directory) place = some .directory := by
    rw [entry?_put (ne_nil_of_ne_directory hd), if_pos rfl]
  refine ⟨locate_eq_ok_iff.2 ⟨shown, ?_, fun _ => made⟩, made⟩
  rw [keeps.origin]
  exact keeps.walk? hw

theorem createDirectory_there (file : p.endsIdle = false) (hd : t.isDirectory p = true) :
    t.createDirectory p = .error .alreadyExists := by
  obtain ⟨place, hl, there⟩ := lookup_eq_ok_iff.1 (isDirectory_iff.1 hd)
  obtain ⟨cs, hcs, hf⟩ := bind_eq_ok.1 hl
  obtain ⟨rfl, -⟩ := pathText_eq_ok_iff.1 hcs
  rw [← withoutEndSlashes_eq_self file] at hf
  refine bind_eq_error.2 (.inr ⟨_, hcs, bind_eq_error.2 (.inr ⟨place, hf, ?_⟩)⟩)
  rw [there]
  rfl

theorem writeText_eq_ok_iff : t.writeText p text = .ok t' ↔
    ∃ place, t.locate p = .ok place ∧ t.entry? place ≠ some .directory ∧
      t' = t.put place (.file text) := by
  rw [writeText, bind_eq_ok]
  refine exists_congr fun place => and_congr_right fun _ => ?_
  split
  · rename_i hd
    simp [hd, throw, throwThe, MonadExceptOf.throw]
  · rename_i hd
    simp only [pure, Except.pure, Except.ok.injEq]
    exact ⟨fun e => ⟨hd, e.symm⟩, fun h => h.2.symm⟩

structure Stored (p : Path) (text : String) (t t' : FileTree) : Prop where
  home : t'.workingPlace = t.workingPlace
  root : t'.entries.get? [] = t.entries.get? []
  frame : ∃ place, t.locate p = .ok place ∧ t.entry? place ≠ some .directory ∧
    t'.entry? place = some (.file text) ∧ ∀ other, other ≠ place → t'.entry? other = t.entry? other

namespace Stored

variable (h : Stored p text t t')
include h

theorem keeps : Keeps t t' where
  home := h.home
  directory other hd := by
    obtain ⟨place, -, hp, -, frame⟩ := h.frame
    rw [frame other]
    · exact hd
    · rintro rfl
      exact hp hd

theorem keeps_back : Keeps t' t where
  home := h.home.symm
  directory other hd := by
    obtain ⟨place, -, -, he, frame⟩ := h.frame
    rw [← frame other]
    · exact hd
    · rintro rfl
      cases hd.symm.trans he

theorem readText : t'.readText p = .ok text := by
  obtain ⟨place, hl, -, he, -⟩ := h.frame
  exact readText_eq_ok_iff.2 (lookup_eq_ok_iff.2 ⟨place, h.keeps.locate hl, he⟩)

theorem isDirectory : t'.isDirectory = t.isDirectory :=
  isDirectory_eq_of_keeps h.keeps h.keeps_back

end Stored

theorem stored_writeText (h : t.writeText p text = .ok t') : Stored p text t t' := by
  obtain ⟨place, hl, hd, rfl⟩ := writeText_eq_ok_iff.1 h
  have hp := ne_nil_of_ne_directory hd
  refine ⟨rfl, get?_put_nil hp, place, hl, hd, ?_, fun other hne => ?_⟩
  · rw [entry?_put hp, if_pos rfl]
  · rw [entry?_put hp, if_neg hne]

def update (t : FileTree) (p : Path) (text : String) : Except FileError FileTree :=
  if t.readText p = .ok text then .ok t else t.writeText p text

theorem stored_update (h : t.update p text = .ok t') : Stored p text t t' := by
  rw [update] at h
  split at h
  · rename_i same
    cases h
    obtain ⟨place, hl, he⟩ := lookup_eq_ok_iff.1 (readText_eq_ok_iff.1 same)
    exact ⟨rfl, rfl, place, hl, by simp [he], he, fun _ _ => rfl⟩
  · exact stored_writeText h

theorem exists_update (text : String) (hl : t.locate p = .ok place)
    (hd : t.entry? place ≠ some .directory) : ∃ t', t.update p text = .ok t' := by
  unfold update
  split
  · exact ⟨t, rfl⟩
  · exact ⟨_, writeText_eq_ok_iff.2 ⟨place, hl, hd, rfl⟩⟩

/-- A later tree that has more directories, each at the place of one of some paths, and is the same
otherwise. -/
structure Grown (paths : List Path) (t t' : FileTree) : Prop where
  home : t'.workingPlace = t.workingPlace
  root : t'.entries.get? [] = t.entries.get? []
  entry : ∀ place, t'.entry? place = t.entry? place ∨
    t.entry? place = none ∧ t'.entry? place = some .directory ∧
      ∃ p ∈ paths, place ≠ t.origin p ∧ t'.locate p = .ok place

namespace Grown

variable {paths : List Path}

theorem refl (paths : List Path) (t : FileTree) : Grown paths t t :=
  ⟨rfl, rfl, fun _ => .inl rfl⟩

theorem keeps (h : Grown paths t t') : Keeps t t' where
  home := h.home
  directory place hd := by
    rcases h.entry place with same | ⟨free, -⟩
    · exact same.trans hd
    · cases hd.symm.trans free

theorem trans (h : Grown paths t t') (h' : Grown paths t' t'') : Grown paths t t'' where
  home := h'.home.trans h.home
  root := h'.root.trans h.root
  entry place := by
    rcases h'.entry place with same' | ⟨free', made', p, hp, apart, denoted'⟩
    · rcases h.entry place with same | ⟨free, made, p, hp, apart, hl⟩
      · exact .inl (same'.trans same)
      · exact .inr ⟨free, same'.trans made, p, hp, apart, h'.keeps.locate hl⟩
    · rcases h.entry place with same | ⟨-, made, -⟩
      · rw [h.keeps.origin] at apart
        exact .inr ⟨same.symm.trans free', made', p, hp, apart, denoted'⟩
      · cases made.symm.trans free'

theorem createDirectory (hp : p ∈ paths) (h : t.createDirectory p = .ok t') : Grown paths t t' := by
  obtain ⟨place, shown, home, hw, free, rfl⟩ := createDirectory_eq_ok h
  have hd : t.entry? place ≠ some .directory := by simp [free]
  obtain ⟨hl, made⟩ := locate_put shown hw free
  refine ⟨rfl, get?_put_nil (ne_nil_of_ne_directory hd), fun other => ?_⟩
  by_cases ho : other = place
  · subst ho
    have apart : other ≠ t.origin p := by
      intro same
      rw [same] at hd
      exact hd home
    exact .inr ⟨free, made, p, hp, apart, hl⟩
  · rw [entry?_put (ne_nil_of_ne_directory hd), if_neg ho]
    exact .inl rfl

end Grown

/-- What a write may change: directories come up at the places of some paths, and the entry of one
file, where no directory is. -/
structure Confined (paths : List Path) (file : Path) (t t' : FileTree) : Prop where
  home : t'.workingPlace = t.workingPlace
  entry : ∀ place, t'.entry? place ≠ t.entry? place →
    (t.entry? place = none ∧ t'.entry? place = some .directory ∧
        ∃ p ∈ paths, t'.locate p = .ok place) ∨
      (t'.locate file = .ok place ∧ t.entry? place ≠ some .directory ∧
        ∃ text, t'.entry? place = some (.file text))

namespace Grown

variable {paths : List Path}

theorem confined (h : Grown paths t t') (file : Path) : Confined paths file t t' where
  home := h.home
  entry place changed := by
    obtain ⟨free, new, p, hp, -, denotes⟩ := (h.entry place).resolve_left changed
    exact .inl ⟨free, new, p, hp, denotes⟩

theorem confined_of_stored {made : FileTree} (h : Grown paths t made)
    (stored : Stored p text made t') : Confined paths p t t' := by
  have keeps := stored.keeps
  obtain ⟨place, hl, hd, he, frame⟩ := stored.frame
  refine ⟨keeps.home.trans h.home, fun other changed => ?_⟩
  by_cases ho : other = place
  · subst ho
    exact .inr ⟨keeps.locate hl, fun was => hd (h.keeps.directory other was), text, he⟩
  · rw [frame other ho] at changed ⊢
    obtain ⟨free, new, p, hp, -, denotes⟩ := (h.entry other).resolve_left changed
    exact .inl ⟨free, new, p, hp, keeps.locate denotes⟩

end Grown

theorem run_bind_of_run {σ α β : Type} {m : StateM σ α} {f : α → StateM σ β} {a : α} {s s' : σ}
    (h : m.run s = (a, s')) : (m >>= f).run s = (f a).run s' := by
  rw [StateT.run_bind, h]
  rfl

def Grows (paths : List Path) {α : Type} (m : StateM FileTree α) : Prop :=
  ∀ t, Grown paths t (m.run t).2

namespace Grows

variable {paths : List Path} {α β : Type}

theorem pure (a : α) : Grows paths (pure a) :=
  Grown.refl paths

theorem bind {m : StateM FileTree α} {f : α → StateM FileTree β} (h : Grows paths m)
    (h' : ∀ a, Grows paths (f a)) : Grows paths (m >>= f) := by
  intro t
  exact (h t).trans (h' _ _)

theorem isDirectory (p : Path) : Grows paths (FileSystem.isDirectory p : StateM FileTree Bool) :=
  Grown.refl paths

theorem createDirectory (hp : p ∈ paths) :
    Grows paths (FileSystem.createDirectory p : StateM FileTree _) := by
  intro t
  have run : (FileSystem.createDirectory p : StateM FileTree _).run t =
    attempt (·.createDirectory p) t := rfl
  rw [run, attempt]
  cases h : t.createDirectory p with
  | ok t' => exact Grown.createDirectory hp h
  | error e => exact Grown.refl paths t

theorem unlessDirectory (p : Path) (e : FileError) : Grows paths (do
    return if ← FileSystem.isDirectory p then Except.ok () else .error e) :=
  (isDirectory p).bind fun _ => pure _

theorem ensureDirectory (hp : p ∈ paths) :
    Grows paths (FileSystem.ensureDirectory p : StateM FileTree _) := by
  refine (createDirectory hp).bind fun r => ?_
  cases r with
  | ok => exact pure _
  | error e => exact unlessDirectory p e

theorem ensureChain {chain : List Path} (h : chain ⊆ paths) :
    Grows paths (FileSystem.ensureChain chain : StateM FileTree _) := by
  induction chain with
  | nil => exact pure _
  | cons p above ih =>
    rw [List.cons_subset] at h
    rw [FileSystem.ensureChain]
    split
    · exact pure _
    · refine (createDirectory h.1).bind fun r => ?_
      split
      · exact pure _
      · refine (ih h.2).bind fun r => ?_
        split
        · exact ensureDirectory h.1
        · exact pure _
      · exact unlessDirectory p _

theorem ensureDirectories (p : Path) :
    Grows p.ancestors (FileSystem.ensureDirectories p : StateM FileTree _) :=
  ensureChain (List.Subset.refl p.ancestors)

end Grows

end FileTree

end NativeBuild
