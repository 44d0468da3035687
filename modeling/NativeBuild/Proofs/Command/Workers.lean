import Mathlib.Data.List.FinRange
import NativeBuild.Command.Workers
import NativeBuild.Proofs.Project.Laziness
import NativeBuild.Proofs.Project.Separation

universe u

namespace NativeBuild

theorem run_mapM_of_invariant {σ : Type u} {α β : Type u} {kept : σ → Prop} {f : α → StateM σ β}
    {g : α → β} {l : List α}
    (step : ∀ a ∈ l, ∀ s, kept s → ((f a).run s).1 = g a ∧ kept ((f a).run s).2) {s : σ}
    (h : kept s) : ((l.mapM f).run s).1 = l.map g ∧ kept ((l.mapM f).run s).2 := by
  induction l generalizing s with
  | nil => exact ⟨rfl, h⟩
  | cons a l ih =>
    rw [List.forall_mem_cons] at step
    obtain ⟨first, after⟩ := step.1 s h
    obtain ⟨others, last⟩ := ih step.2 after
    rw [List.mapM_cons, List.map_cons, ← first, ← others]
    exact ⟨rfl, last⟩

theorem mapM_eq_some_iff {α β : Type u} {f : α → Option β} {l : List α} {bs : List β} :
    l.mapM f = some bs ↔ List.Forall₂ (fun a b => f a = some b) l bs := by
  induction l generalizing bs with
  | nil =>
    rw [List.forall₂_nil_left_iff]
    exact Option.some_inj.trans eq_comm
  | cons a l ih =>
    rw [List.forall₂_cons_left_iff]
    simp only [List.mapM_cons, Option.bind_eq_bind, Option.bind_eq_some_iff, ih, Option.pure_def,
      Option.some_inj, exists_and_left, eq_comm (a := bs)]

def Descriptor.moduleMaps (d : Descriptor) (r : Repository) : Except BuildError (List ModuleMap) :=
  ModuleMap.ofResolution (r.resolve (ModuleMap.request d.channels.compile))

def Evaluation.Settled (p : Project) (r : Repository) (s : Evaluation) : Prop :=
  ∀ d ∈ p.binaries, ∀ maps, (s.slots d.position).moduleMaps = .evaluated maps →
    maps = d.moduleMaps r

section Wired

variable {m : Manifest} {root : Path} {p : Project} {r : Repository} {s : Evaluation}

theorem Evaluation.settled_start (p : Project) (r : Repository) : Settled p r (.start p) := by
  intro d _ maps h
  cases h

variable (wired : Project.wireAt m root = .ok p)
include wired

theorem Evaluation.Settled.setSlots (h : s.Settled p r) {d : Descriptor} (hd : d ∈ p.binaries)
    {slots : Slots} (own : slots.moduleMaps = .evaluated (d.moduleMaps r)) :
    (s.setSlots d.position slots).Settled p r := by
  intro b hb maps kept
  by_cases same : b.position = d.position
  · obtain rfl := Project.eq_of_position wired hb hd same
    simp only [Evaluation.setSlots, if_true, own] at kept
    exact (Deferred.evaluated.inj kept).symm
  · simp only [Evaluation.setSlots, if_neg same] at kept
    exact h b hb maps kept

theorem Evaluation.Settled.readModuleMaps (h : s.Settled p r) {d : Descriptor}
    (hd : d ∈ p.binaries) : ((d.readModuleMaps r.engine).run s).1 = d.moduleMaps r ∧
      ((d.readModuleMaps r.engine).run s).2.Settled p r := by
  cases hc : (s.slots d.position).moduleMaps with
  | evaluated maps =>
    rw [d.run_readModuleMaps_kept hc]
    exact ⟨h d hd maps hc, h⟩
  | unevaluated =>
    rw [d.run_readModuleMaps_fresh hc]
    exact ⟨rfl, h.setSlots wired hd rfl⟩

variable {selected : List Descriptor} (within : ∀ d ∈ selected, d ∈ p.binaries)
include within

theorem Command.readAll_eq :
    readAll p r.engine selected = selected.map fun d => (d.name, d.moduleMaps r) := by
  refine (run_mapM_of_invariant (fun d hd s h => ?_) (Evaluation.settled_start p r)).1
  obtain ⟨maps, after⟩ := Evaluation.Settled.readModuleMaps wired h (within d hd)
  exact ⟨congrArg (Prod.mk d.name) maps, after⟩

end Wired

namespace Workers

variable {selected : List Descriptor} {engine : Engine} {s s' : Workers selected}
variable {i : Fin selected.length}

inductive Turn (engine : Engine) (s : Workers selected) : Event selected → Workers selected → Prop
  | read {i : Fin selected.length} {maps : Except BuildError (List ModuleMap)} :
      s.worker i = .idle →
      (s.evaluation.slots (selected.get i).position).moduleMaps = .evaluated maps →
      Turn engine s (.begin i) (s.move i (.done maps) s.evaluation)
  | ask {i : Fin selected.length} : s.worker i = .idle →
      (s.evaluation.slots (selected.get i).position).moduleMaps = .unevaluated →
      Turn engine s (.begin i)
        (s.move i
          (.answered
            (engine s.evaluation.calls (ModuleMap.request (selected.get i).channels.compile)))
          { s.evaluation with calls := s.evaluation.calls + 1 })
  | keep {i : Fin selected.length} {answer : Resolution} : s.worker i = .answered answer →
      Turn engine s (.finish i)
        (s.move i (.done (ModuleMap.ofResolution answer))
          (s.evaluation.setSlots (selected.get i).position
            { s.evaluation.slots (selected.get i).position with
              moduleMaps := .evaluated (ModuleMap.ofResolution answer) }))

theorem step_eq_some_iff {e : Event selected} : s.step engine e = some s' ↔ s.Turn engine e s' := by
  constructor
  · intro h
    cases e with
    | begin i =>
      simp only [step] at h
      split at h
      · rename_i idle kept
        cases h
        exact .read idle kept
      · rename_i idle none_yet
        cases h
        exact .ask idle none_yet
      · cases h
    | finish i =>
      simp only [step] at h
      split at h
      · rename_i answered
        cases h
        exact .keep answered
      · cases h
  · intro h
    cases h with
    | read idle kept => simp only [step, idle, kept]
    | ask idle none_yet =>
      simp only [step, idle, none_yet]
      rfl
    | keep answered => simp only [step, answered]

theorem run_cons_of_turn {e : Event selected} (h : s.Turn engine e s')
    (events : List (Event selected)) : s.run engine (e :: events) = s'.run engine events := by
  rw [run, List.foldlM_cons, step_eq_some_iff.2 h]
  rfl

theorem run_append_of_run {before : List (Event selected)} (h : s.run engine before = some s')
    (after : List (Event selected)) : s.run engine (before ++ after) = s'.run engine after := by
  rw [run, List.foldlM_append]
  exact congrArg (· >>= fun s => s.run engine after) h

@[simp] theorem worker_move_self (s : Workers selected) (i : Fin selected.length) (w : Worker)
    (evaluation : Evaluation) : (s.move i w evaluation).worker i = w := by
  simp [move]

theorem worker_move_of_ne {j : Fin selected.length} (h : j ≠ i) (s : Workers selected) (w : Worker)
    (evaluation : Evaluation) : (s.move i w evaluation).worker j = s.worker j := by
  simp [move, h]

/-- Where the worker of a binary can be: what it brings is what a repository gives. -/
inductive Fits (d : Descriptor) (r : Repository) : Worker → Prop
  | idle : Fits d r .idle
  | answered : Fits d r (.answered (r.resolve (ModuleMap.request d.channels.compile)))
  | done : Fits d r (.done (d.moduleMaps r))

structure Sound (p : Project) (r : Repository) (s : Workers selected) : Prop where
  settled : s.evaluation.Settled p r
  fits : ∀ i, Fits (selected.get i) r (s.worker i)

variable {m : Manifest} {root : Path} {p : Project} {r : Repository}

theorem sound_start (p : Project) (r : Repository) (selected : List Descriptor) :
    (start p selected).Sound p r :=
  ⟨Evaluation.settled_start p r, fun _ => .idle⟩

theorem Sound.move (h : s.Sound p r) {w : Worker} (hw : Fits (selected.get i) r w)
    {evaluation : Evaluation} (settled : evaluation.Settled p r) :
    (s.move i w evaluation).Sound p r := by
  refine ⟨settled, fun j => ?_⟩
  by_cases hj : j = i
  · subst hj
    rwa [worker_move_self]
  · rw [worker_move_of_ne hj]
    exact h.fits j

variable (wired : Project.wireAt m root = .ok p) (within : ∀ d ∈ selected, d ∈ p.binaries)
include wired within

theorem Sound.turn {e : Event selected} (h : s.Sound p r) (turn : s.Turn r.engine e s') :
    s'.Sound p r := by
  cases turn with
  | @read i maps idle kept =>
    obtain rfl := h.settled _ (within _ (List.get_mem selected i)) maps kept
    exact h.move .done h.settled
  | ask idle none_yet => exact h.move .answered h.settled
  | @keep i answer answered =>
    have fits := h.fits i
    rw [answered] at fits
    cases fits
    exact h.move .done (h.settled.setSlots wired (within _ (List.get_mem selected i)) rfl)

theorem Sound.run {events : List (Event selected)} (h : s.Sound p r)
    (hs : s.run r.engine events = some s') : s'.Sound p r := by
  induction events generalizing s with
  | nil =>
    cases hs
    exact h
  | cons e events ih =>
    obtain ⟨mid, first, rest⟩ := Option.bind_eq_some_iff.1 hs
    exact ih (h.turn wired within (step_eq_some_iff.1 first)) rest

omit wired within

theorem map_places {α : Type} (g : Descriptor → α) :
    (List.finRange selected.length).map (fun i => g (selected.get i)) = selected.map g := by
  conv_rhs => rw [← List.map_get_finRange selected, List.map_map]
  rfl

theorem Sound.results?_eq (h : s.Sound p r)
    {results : List (String × Except BuildError (List ModuleMap))}
    (hr : s.results? = some results) :
    results = selected.map fun d => (d.name, d.moduleMaps r) := by
  have each : List.Forall₂ (· = ·)
      ((List.finRange selected.length).map
        fun i => ((selected.get i).name, (selected.get i).moduleMaps r)) results := by
    rw [List.forall₂_map_left_iff]
    refine (mapM_eq_some_iff.1 hr).imp fun i result hi => ?_
    have fits := h.fits i
    generalize s.worker i = w at fits hi
    cases fits with
    | idle => cases hi
    | answered => cases hi
    | done => exact Option.some.inj hi
  rw [List.forall₂_eq_eq_eq] at each
  rw [← each, map_places fun d => (d.name, d.moduleMaps r)]

def Done (r : Repository) (s : Workers selected) (i : Fin selected.length) : Prop :=
  s.worker i = .done ((selected.get i).moduleMaps r)

theorem results?_of_done (h : ∀ i, s.Done r i) :
    s.results? = some (selected.map fun d => (d.name, d.moduleMaps r)) := by
  rw [← map_places, results?, mapM_eq_some_iff, List.forall₂_map_right_iff, List.forall₂_same]
  intro i _
  rw [show s.worker i = _ from h i]
  rfl

theorem done_move {maps : Except BuildError (List ModuleMap)}
    (h : maps = (selected.get i).moduleMaps r) (evaluation : Evaluation) :
    (s.move i (.done maps) evaluation).Done r i ∧
      ∀ j, s.Done r j → (s.move i (.done maps) evaluation).Done r j := by
  have self : (s.move i (.done maps) evaluation).Done r i := by
    rw [Done, worker_move_self, h]
  refine ⟨self, fun j hj => ?_⟩
  by_cases same : j = i
  · rwa [same]
  · rwa [Done, worker_move_of_ne same]

variable (wired : Project.wireAt m root = .ok p) (within : ∀ d ∈ selected, d ∈ p.binaries)
include wired within

theorem Sound.done_answered (h : s.Sound p r) {answer : Resolution}
    (answered : s.worker i = .answered answer) :
    ∃ s', s.Turn r.engine (.finish i) s' ∧ s'.Sound p r ∧ s'.Done r i ∧
      ∀ j, s.Done r j → s'.Done r j := by
  have turn : s.Turn r.engine (.finish i) _ := .keep answered
  have fits := h.fits i
  rw [answered] at fits
  cases fits
  exact ⟨_, turn, h.turn wired within turn, done_move rfl _⟩

theorem Sound.done_one (h : s.Sound p r) (i : Fin selected.length) :
    ∃ more s', s.run r.engine more = some s' ∧ s'.Sound p r ∧ s'.Done r i ∧
      ∀ j, s.Done r j → s'.Done r j := by
  cases hw : s.worker i with
  | idle =>
    cases hc : (s.evaluation.slots (selected.get i).position).moduleMaps with
    | evaluated maps =>
      have turn : s.Turn r.engine (.begin i) _ := .read hw hc
      have same := h.settled _ (within _ (List.get_mem selected i)) maps hc
      exact ⟨[.begin i], _, run_cons_of_turn turn [], h.turn wired within turn, done_move same _⟩
    | unevaluated =>
      have asks : s.Turn r.engine (.begin i) _ := .ask hw hc
      obtain ⟨s', ends, sound, done, stay⟩ :=
        (h.turn wired within asks).done_answered wired within (worker_move_self s i _ _)
      refine ⟨[.begin i, .finish i], s', ?_, sound, done, fun j hj => stay j ?_⟩
      · exact (run_cons_of_turn asks _).trans (run_cons_of_turn ends [])
      -- A worker that is done is not the one that asks.
      · rw [Done, worker_move_of_ne]
        · exact hj
        · rintro rfl
          cases hw.symm.trans hj
  | answered answer =>
    obtain ⟨s', ends, sound, done⟩ := h.done_answered wired within hw
    exact ⟨[.finish i], s', run_cons_of_turn ends [], sound, done⟩
  | done maps =>
    have fits := h.fits i
    rw [hw] at fits
    cases fits
    exact ⟨[], s, rfl, h, hw, fun _ hj => hj⟩

theorem Sound.done_all (h : s.Sound p r) (places : List (Fin selected.length)) :
    ∃ more s', s.run r.engine more = some s' ∧ s'.Sound p r ∧ ∀ i ∈ places, s'.Done r i := by
  induction places with
  | nil => exact ⟨[], s, rfl, h, List.forall_mem_nil _⟩
  | cons i places ih =>
    obtain ⟨more, mid, run, sound, others⟩ := ih
    obtain ⟨last, s', run', sound', one, stay⟩ := sound.done_one wired within i
    refine ⟨more ++ last, s', (run_append_of_run run last).trans run', sound', ?_⟩
    exact List.forall_mem_cons.2 ⟨one, fun j hj => stay j (others j hj)⟩

/-- However workers take turns, they can all come to an end, and then their results are those of
reading one binary after another. -/
theorem results?_run {events : List (Event selected)}
    (h : (start p selected).run r.engine events = some s) :
    (∀ results, s.results? = some results → results = Command.readAll p r.engine selected) ∧
      ∃ more s', s.run r.engine more = some s' ∧
        s'.results? = some (Command.readAll p r.engine selected) := by
  have sound := (sound_start p r selected).run wired within h
  rw [Command.readAll_eq wired within]
  obtain ⟨more, s', run, -, all⟩ := sound.done_all wired within (List.finRange selected.length)
  exact ⟨fun results hr => sound.results?_eq hr, more, s', run,
    results?_of_done fun i => all i (List.mem_finRange i)⟩

end Workers

end NativeBuild
