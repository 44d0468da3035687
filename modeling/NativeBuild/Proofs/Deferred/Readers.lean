import NativeBuild.Deferred.Readers

universe u

namespace NativeBuild.Readers

variable {α : Type u}

section Moved

variable {i j : Nat} {v : α} {r : Reader α}

@[simp] theorem reader_move_self (s : Readers α) (i : Nat) (r : Reader α) :
    (s.move i r).reader i = r := by
  simp [move]

theorem reader_move_of_ne (s : Readers α) (h : j ≠ i) (r : Reader α) :
    (s.move i r).reader j = s.reader j := by
  simp [move, h]

theorem reader_move_cases {s : Readers α} (h : (s.move i r).reader j = Reader.returned v) :
    (j = i ∧ r = .returned v) ∨ s.reader j = .returned v := by
  by_cases hj : j = i
  · subst hj
    rw [reader_move_self] at h
    exact .inl ⟨rfl, h⟩
  · rw [reader_move_of_ne s hj] at h
    exact .inr h

end Moved

def Event.value? : Event α → Option α
  | .finish _ v => some v
  | .call _ | .resume _ => none

inductive Turn (s : Readers α) : Event α → Readers α → Prop
  | read {i : Nat} {v : α} : s.reader i = .idle → s.cell = .evaluated v →
      Turn s (.call i) (s.move i (.returned v))
  | wait {i : Nat} : s.reader i = .idle → s.cell = .unevaluated → s.busy = true →
      Turn s (.call i) (s.move i .waiting)
  | start {i : Nat} : s.reader i = .idle → s.cell = .unevaluated → s.busy = false →
      Turn s (.call i) { s.move i .running with runs := s.runs + 1, busy := true }
  | finish {i : Nat} {v : α} : s.reader i = .running →
      Turn s (.finish i v) { s.move i (.returned v) with cell := .evaluated v, busy := false }
  | resume {i : Nat} {v : α} : s.reader i = .waiting → s.cell = .evaluated v →
      Turn s (.resume i) (s.move i (.returned v))

theorem step_eq_some_iff {s s' : Readers α} {e : Event α} : s.step e = some s' ↔ s.Turn e s' := by
  constructor
  · intro h
    cases e with
    | call i =>
      simp only [step] at h
      split at h
      · rename_i idle value
        cases h
        exact .read idle value
      · rename_i idle none_yet
        split at h
        · rename_i busy
          cases h
          exact .wait idle none_yet busy
        · rename_i free
          cases h
          exact .start idle none_yet (Bool.eq_false_iff.2 free)
      · cases h
    | finish i v =>
      simp only [step] at h
      split at h
      · rename_i running
        cases h
        exact .finish running
      · cases h
    | resume i =>
      simp only [step] at h
      split at h
      · rename_i waiting value
        cases h
        exact .resume waiting value
      · cases h
  · intro h
    cases h with
    | read idle value => simp only [step, idle, value]
    | wait idle none_yet busy => simp only [step, idle, none_yet, busy, if_true]
    | start idle none_yet free => simp [step, idle, none_yet, free]
    | finish running => simp only [step, running]
    | resume waiting value => simp only [step, waiting, value]

theorem run_cons_of_step {s s' : Readers α} {e : Event α} (h : s.step e = some s')
    (events : List (Event α)) : s.run (e :: events) = s'.run events := by
  rw [run, List.foldlM_cons, h]
  rfl

theorem run_uninterrupted (cell : Deferred α) (v : α) (i : Nat) : ∃ events s w,
    (start cell).run events = some s ∧ s.reader i = .returned w ∧
      cell.read (m := Id) (pure v) = pure (w, s.cell) := by
  cases cell with
  | evaluated w =>
    have reads : (start (.evaluated w)).step (.call i) = some _ :=
      step_eq_some_iff.2 (.read rfl rfl)
    exact ⟨[.call i], _, w, run_cons_of_step reads [], reader_move_self _ i _, rfl⟩
  | unevaluated =>
    have starts : (start (.unevaluated : Deferred α)).step (.call i) = some _ :=
      step_eq_some_iff.2 (.start rfl rfl rfl)
    have finishes : Readers.step
        { (start (.unevaluated : Deferred α)).move i .running with runs := 1, busy := true }
          (.finish i v) = some _ :=
      step_eq_some_iff.2 (.finish (reader_move_self (start .unevaluated) i .running))
    have run := (run_cons_of_step starts _).trans (run_cons_of_step finishes [])
    exact ⟨[.call i, .finish i v], _, v, run, reader_move_self _ i _, rfl⟩

/-- The three states that the readers of a deferred value go through, with the values that were
produced so far: nobody asked for the value yet, one reader computes it, or it is there. -/
inductive Phase (cell : Deferred α) (produced : List α) (s : Readers α) : Prop
  | unevaluated : cell = .unevaluated → produced = [] → s.cell = .unevaluated → s.runs = 0 →
      s.busy = false → (∀ j, s.reader j = .idle) → Phase cell produced s
  | evaluating {i : Nat} : cell = .unevaluated → produced = [] → s.cell = .unevaluated →
      s.runs = 1 → s.busy = true → s.reader i = .running →
      (∀ j, j ≠ i → s.reader j = .idle ∨ s.reader j = .waiting) → Phase cell produced s
  | evaluated {v : α} : s.cell = .evaluated v →
      (cell = .ready v ∧ produced = [] ∧ s.runs = 0) ∨
        (cell = .unevaluated ∧ produced = [v] ∧ s.runs = 1) →
      (∀ j, s.reader j ≠ .running) → (∀ j w, s.reader j = .returned w → w = v) →
      Phase cell produced s

theorem phase_start (cell : Deferred α) : Phase cell [] (start cell) := by
  cases cell with
  | unevaluated => exact .unevaluated rfl rfl rfl rfl rfl fun _ => rfl
  | evaluated v => exact .evaluated rfl (.inl ⟨rfl, rfl, rfl⟩) (by simp [start]) (by simp [start])

namespace Phase

variable {cell : Deferred α} {produced : List α} {s s' : Readers α} {v : α}

theorem silent (h : Phase cell produced s) : Phase cell (produced ++ (none : Option α).toList) s := by
  rwa [Option.toList_none, List.append_nil]

theorem read (h : Phase cell produced s) (value : s.cell = .evaluated v) (i : Nat) :
    Phase cell produced (s.move i (.returned v)) := by
  cases h with
  | unevaluated _ _ none_yet => cases none_yet.symm.trans value
  | evaluating _ _ none_yet => cases none_yet.symm.trans value
  | evaluated there origin still same =>
    cases there.symm.trans value
    refine .evaluated value origin (fun j => ?_) fun j w hj => ?_
    · by_cases hj : j = i
      · simp [hj]
      · rw [reader_move_of_ne s hj]
        exact still j
    · rcases reader_move_cases hj with ⟨-, e⟩ | before
      · exact (Reader.returned.inj e).symm
      · exact same j w before

theorem step {e : Event α} (h : Phase cell produced s) (hs : s.step e = some s') :
    Phase cell (produced ++ e.value?.toList) s' := by
  cases step_eq_some_iff.1 hs with
  | read idle value => exact (h.read value _).silent
  | resume waiting value => exact (h.read value _).silent
  | @wait i idle none_yet busy =>
    apply silent
    cases h with
    | unevaluated _ _ _ _ free => cases busy.symm.trans free
    | evaluated there => cases none_yet.symm.trans there
    | @evaluating k made unproduced _ once _ running others =>
      -- The reader that comes is idle, so it is not the one that runs.
      have other : k ≠ i := by
        rintro rfl
        cases running.symm.trans idle
      refine .evaluating made unproduced none_yet once busy
        ((reader_move_of_ne s other _).trans running) ?_
      intro j hj
      by_cases hi : j = i
      · rw [hi, reader_move_self]
        exact .inr rfl
      · rw [reader_move_of_ne s hi]
        exact others j hj
  | @start i idle none_yet free =>
    apply silent
    cases h with
    | evaluating _ _ _ _ busy => cases busy.symm.trans free
    | evaluated there => cases none_yet.symm.trans there
    | unevaluated made unproduced _ never _ all =>
      refine .evaluating made unproduced none_yet (congrArg Nat.succ never) rfl (reader_move_self s i _) ?_
      intro j hj
      exact .inl ((reader_move_of_ne s hj _).trans (all j))
  | @finish i v running =>
    cases h with
    | unevaluated _ _ _ _ _ all => cases (all i).symm.trans running
    | evaluated _ _ still => exact absurd running (still i)
    | @evaluating k made unproduced _ once _ runs others =>
      -- The reader that finishes is the one that runs.
      have same : i = k := by
        by_cases hk : i = k
        · exact hk
        rcases others i hk with other | other
        · cases other.symm.trans running
        · cases other.symm.trans running
      subst same
      refine .evaluated rfl (.inr ⟨made, congrArg (· ++ [v]) unproduced, once⟩) (fun j => ?_)
        fun j w hj => ?_
      · by_cases hj : j = i
        · subst hj
          change (s.move j (.returned v)).reader j ≠ .running
          simp
        · change (s.move i (.returned v)).reader j ≠ .running
          rw [reader_move_of_ne s hj]
          rcases others j hj with e | e
          · simp [e]
          · simp [e]
      · rcases reader_move_cases hj with ⟨-, e⟩ | before
        · exact (Reader.returned.inj e).symm
        · by_cases hi : j = i
          · rw [hi] at before
            cases before.symm.trans running
          · rcases others j hi with e | e
            · cases e.symm.trans before
            · cases e.symm.trans before

theorem run {events : List (Event α)} (h : Phase cell produced s) (hs : s.run events = some s') :
    Phase cell (produced ++ events.filterMap Event.value?) s' := by
  induction events generalizing s produced with
  | nil =>
    cases hs
    rwa [List.filterMap_nil, List.append_nil]
  | cons e events ih =>
    obtain ⟨mid, first, rest⟩ := Option.bind_eq_some_iff.1 hs
    have later := ih (h.step first) rest
    have split : (e :: events).filterMap Event.value? =
        e.value?.toList ++ events.filterMap Event.value? := by
      cases he : e.value? <;> simp [he]
    rwa [split, ← List.append_assoc]

theorem value?_cell (h : Phase cell produced s) :
    s.cell.value? = cell.value?.or produced.head? := by
  cases h with
  | unevaluated made unproduced none_yet =>
    rw [made, unproduced, none_yet]
    rfl
  | evaluating made unproduced none_yet =>
    rw [made, unproduced, none_yet]
    rfl
  | evaluated there origin =>
    rcases origin with ⟨made, unproduced, -⟩ | ⟨made, once, -⟩
    · rw [made, unproduced, there]
      rfl
    · rw [made, once, there]
      rfl

theorem cell_eq {more : List α} (h : Phase cell produced s) (h' : Phase cell (produced ++ more) s')
    (value : s.cell = .evaluated v) : s'.cell = .evaluated v := by
  -- The cell holds the first value that there was, and `more` comes after it.
  have now : some v = cell.value?.or produced.head? := by
    rw [← h.value?_cell, value]
    rfl
  have later : s'.cell.value? = some v := by
    rw [h'.value?_cell, List.head?_append, ← Option.or_assoc, ← now]
    rfl
  cases hc : s'.cell with
  | unevaluated => simp [hc, Deferred.value?] at later
  | evaluated w =>
    rw [hc] at later
    exact congrArg Deferred.evaluated (Option.some.inj later)

theorem returns_of_value (value : s.cell = .evaluated v) {i : Nat} (hi : s.reader i ≠ .running) :
    ∃ more s', s.run more = some s' ∧ ∃ w, s'.reader i = .returned w := by
  cases hr : s.reader i with
  | idle =>
    have turn := step_eq_some_iff.2 (Turn.read hr value)
    exact ⟨[.call i], _, run_cons_of_step turn [], v, reader_move_self s i _⟩
  | running => exact absurd hr hi
  | waiting =>
    have turn := step_eq_some_iff.2 (Turn.resume hr value)
    exact ⟨[.resume i], _, run_cons_of_step turn [], v, reader_move_self s i _⟩
  | returned w => exact ⟨[], s, rfl, w, hr⟩

theorem returns_of_running (h : Phase cell produced s) {k : Nat} (hk : s.reader k = .running)
    (v : α) (i : Nat) : ∃ more s', s.run more = some s' ∧ ∃ w, s'.reader i = .returned w := by
  have turn := step_eq_some_iff.2 (Turn.finish (v := v) hk)
  cases h.step turn with
  | unevaluated _ _ none_yet => cases none_yet
  | evaluating _ _ none_yet => cases none_yet
  | evaluated there origin still same =>
    obtain ⟨more, s', run, returned⟩ := returns_of_value there (still i)
    exact ⟨.finish k v :: more, s', (run_cons_of_step turn more).trans run, returned⟩

theorem returns (h : Phase cell produced s) (v : α) (i : Nat) :
    ∃ more s', s.run more = some s' ∧ ∃ w, s'.reader i = .returned w := by
  have phase := h
  cases h with
  | evaluated there origin still => exact returns_of_value there (still i)
  | evaluating _ _ _ _ _ running => exact phase.returns_of_running running v i
  | unevaluated _ _ none_yet _ free all =>
    have turn := step_eq_some_iff.2 (Turn.start (all i) none_yet free)
    obtain ⟨more, s', run, returned⟩ :=
      (phase.step turn).returns_of_running (reader_move_self s i .running) v i
    exact ⟨.call i :: more, s', (run_cons_of_step turn more).trans run, returned⟩

end Phase

/-- In whatever order readers come, go and wait: the initialiser is started at most once, and not at
all if the value was there from the beginning. No reader returns before its run has ended, and all
return the value that it produced. Once the value is there, it stays. Every reader can return. -/
theorem runs_once (cell : Deferred α) (events : List (Event α)) {s : Readers α}
    (h : (start cell).run events = some s) :
    let produced := events.filterMap Event.value?
    (produced.length ≤ s.runs ∧ s.runs ≤ 1 ∧ ∀ v, cell = .ready v → s.runs = 0) ∧
    (∀ i v, s.reader i = .returned v → s.cell = .evaluated v ∧ (∀ j, s.reader j ≠ .running) ∧
      ((cell = .ready v ∧ produced = []) ∨ (cell = .unevaluated ∧ produced = [v]))) ∧
    (∀ before after s', events = before ++ after → (start cell).run before = some s' →
      s'.cell.isEvaluated = true → s.cell = s'.cell) ∧
    ∀ (_ : α) (i : Nat), ∃ more s', s.run more = some s' ∧ ∃ w, s'.reader i = .returned w := by
  intro produced
  have phase : Phase cell produced s := (phase_start cell).run h
  refine ⟨?_, ?_, ?_, phase.returns⟩
  · cases phase with
    | unevaluated made unproduced _ never => simp [made, unproduced, never, Deferred.ready]
    | evaluating made unproduced _ once => simp [made, unproduced, once, Deferred.ready]
    | evaluated _ origin =>
      rcases origin with ⟨made, unproduced, never⟩ | ⟨made, one, once⟩
      · simp [unproduced, never]
      · simp [made, one, once, Deferred.ready]
  · intro i v hi
    cases phase with
    | unevaluated _ _ _ _ _ all => cases (all i).symm.trans hi
    | @evaluating k _ _ _ _ _ running others =>
      by_cases hk : i = k
      · subst hk
        cases running.symm.trans hi
      · rcases others i hk with other | other
        · cases other.symm.trans hi
        · cases other.symm.trans hi
    | evaluated there origin still same =>
      obtain rfl := same i v hi
      refine ⟨there, still, ?_⟩
      rcases origin with ⟨made, unproduced, -⟩ | ⟨made, one, -⟩
      · exact .inl ⟨made, unproduced⟩
      · exact .inr ⟨made, one⟩
  · intro before after s' split run evaluated
    have earlier : Phase cell (before.filterMap Event.value?) s' := (phase_start cell).run run
    have later : Phase cell (before.filterMap Event.value? ++ after.filterMap Event.value?) s := by
      rwa [← List.filterMap_append, ← split]
    cases hc : s'.cell with
    | unevaluated => simp [hc, Deferred.isEvaluated] at evaluated
    | evaluated v => exact earlier.cell_eq later hc

theorem runs_once_contended :
    let events : List (Event (Except String Nat)) :=
      [.call 0, .call 1, .call 2, .finish 0 (.error "boom"), .resume 2, .call 3, .resume 1]
    ∃ s, (start .unevaluated).run events = some s ∧ s.runs ≤ 1 ∧
      s.reader 1 = .returned (.error "boom") ∧ s.cell = .evaluated (.error "boom") ∧
        ∀ j, s.reader j ≠ .running := by
  intro events
  refine ⟨_, rfl, ?_⟩
  obtain ⟨⟨-, once, -⟩, returned, -⟩ := runs_once .unevaluated events rfl
  obtain ⟨value, still, -⟩ := returned 1 (.error "boom") rfl
  exact ⟨once, rfl, value, still⟩

end NativeBuild.Readers
