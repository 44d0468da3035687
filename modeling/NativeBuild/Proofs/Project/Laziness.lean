import Mathlib.Data.Finset.Card
import Mathlib.Data.Finset.Dedup
import NativeBuild.Project.Reads
import NativeBuild.Proofs.Except

namespace NativeBuild

namespace Slots

variable {p q : Purpose}

@[simp] theorem get_set_self (s : Slots) (cell : Deferred Resolution) (p : Purpose) :
    (s.set cell p).get p = cell := by
  cases p <;> rfl

theorem get_set_of_ne (h : q ≠ p) (s : Slots) (cell : Deferred Resolution) :
    (s.set cell p).get q = s.get q := by
  cases p <;> cases q
  case compile.compile => exact absurd rfl h
  case link.link => exact absurd rfl h
  case runtime.runtime => exact absurd rfl h
  all_goals rfl

@[simp] theorem moduleMaps_set (s : Slots) (cell : Deferred Resolution) (p : Purpose) :
    (s.set cell p).moduleMaps = s.moduleMaps := by
  cases p <;> rfl

@[simp] theorem set_get (s : Slots) (p : Purpose) : s.set (s.get p) p = s := by
  cases p <;> rfl

def answer? (s : Slots) : Slot → Option Answer
  | .artifacts purpose => (s.get purpose).value?.map .artifacts
  | .moduleMaps => s.moduleMaps.value?.map .moduleMaps

theorem answer?_set (s : Slots) (answer : Resolution) (p : Purpose) (k : Slot) :
    (s.set (.evaluated answer) p).answer? k =
      if k = .artifacts p then some (.artifacts answer) else s.answer? k := by
  cases k with
  | moduleMaps => simp [answer?]
  | artifacts q =>
    by_cases h : q = p
    · subst h
      simp [answer?, Deferred.value?]
    · simp [answer?, get_set_of_ne h, h]

theorem answer?_setModuleMaps (s : Slots) (maps : Except BuildError (List ModuleMap)) (k : Slot) :
    ({ s with moduleMaps := .evaluated maps } : Slots).answer? k =
      if k = .moduleMaps then some (.moduleMaps maps) else s.answer? k := by
  cases k with
  | moduleMaps => rfl
  | artifacts q => cases q <;> rfl

end Slots

namespace Evaluation

def answer? (s : Evaluation) (position : Nat) (k : Slot) : Option Answer :=
  (s.slots position).answer? k

theorem setSlots_self (s : Evaluation) (i : Nat) : s.setSlots i (s.slots i) = s := by
  unfold setSlots
  congr 1
  funext j
  by_cases h : j = i
  · rw [if_pos h, h]
  · rw [if_neg h]

theorem answer?_setSlots (s : Evaluation) (i j : Nat) (slots : Slots) (k : Slot) :
    (s.setSlots i slots).answer? j k = if j = i then slots.answer? k else s.answer? j k := by
  simp only [answer?, setSlots]
  split <;> rfl

end Evaluation

namespace Deferred

variable {α β : Type} {cell : Deferred α} {f : α → β} {b : β}

theorem map_value?_eq_some : cell.value?.map f = some b ↔ ∃ a, cell = .evaluated a ∧ f a = b := by
  cases cell <;> simp [value?]

theorem map_value?_eq_none : cell.value?.map f = none ↔ cell = .unevaluated := by
  cases cell <;> simp [value?]

theorem isEvaluated_eq_isSome (cell : Deferred α) (f : α → β) :
    cell.isEvaluated = (cell.value?.map f).isSome := by
  cases cell <;> rfl

end Deferred

namespace Descriptor

variable {d : Descriptor} {engine : Engine} {s : Evaluation} {k : Slot} {a : Answer}

def fetch (d : Descriptor) (engine : Engine) (calls : Nat) : Slot → Answer
  | .artifacts purpose => .artifacts (engine calls (d.channels.get purpose).request)
  | .moduleMaps =>
    .moduleMaps (ModuleMap.ofResolution (engine calls (ModuleMap.request d.channels.compile)))

def fetched (d : Descriptor) (s : Evaluation) (slots : Slots) : Evaluation :=
  { s.setSlots d.position slots with calls := s.calls + 1 }

theorem run_readArtifacts_kept {p : Purpose} {answer : Resolution}
    (h : (s.slots d.position).get p = .evaluated answer) :
    (d.readArtifacts engine p).run s = (answer, s) := by
  have same : s.setSlots d.position ((s.slots d.position).set (.evaluated answer) p) = s := by
    rw [← h, Slots.set_get, Evaluation.setSlots_self]
  simp only [readArtifacts, StateT.run_bind, StateT.run_get, pure_bind, h, Deferred.read_evaluated]
  exact congrArg (answer, ·) same

theorem run_readArtifacts_fresh {p : Purpose} (h : (s.slots d.position).get p = .unevaluated) :
    let answer := engine s.calls (d.channels.get p).request
    (d.readArtifacts engine p).run s =
      (answer, d.fetched s ((s.slots d.position).set (.evaluated answer) p)) := by
  simp only [readArtifacts, StateT.run_bind, StateT.run_get, pure_bind, h]
  rfl

theorem run_readModuleMaps_kept {maps : Except BuildError (List ModuleMap)}
    (h : (s.slots d.position).moduleMaps = .evaluated maps) :
    (d.readModuleMaps engine).run s = (maps, s) := by
  have same : s.setSlots d.position { s.slots d.position with moduleMaps := .evaluated maps } = s := by
    rw [← h, Evaluation.setSlots_self]
  simp only [readModuleMaps, StateT.run_bind, StateT.run_get, pure_bind, h, Deferred.read_evaluated]
  exact congrArg (maps, ·) same

theorem run_readModuleMaps_fresh (h : (s.slots d.position).moduleMaps = .unevaluated) :
    let maps := ModuleMap.ofResolution (engine s.calls (ModuleMap.request d.channels.compile))
    (d.readModuleMaps engine).run s =
      (maps, d.fetched s { s.slots d.position with moduleMaps := .evaluated maps }) := by
  simp only [readModuleMaps, StateT.run_bind, StateT.run_get, pure_bind, h]
  rfl

theorem readSlot_kept (h : s.answer? d.position k = some a) :
    (d.readSlot engine k).run s = (a, s) := by
  cases k with
  | artifacts purpose =>
    obtain ⟨answer, hc, rfl⟩ := Deferred.map_value?_eq_some.1 h
    simp only [readSlot, StateT.run_bind, run_readArtifacts_kept hc]
    rfl
  | moduleMaps =>
    obtain ⟨maps, hc, rfl⟩ := Deferred.map_value?_eq_some.1 h
    simp only [readSlot, StateT.run_bind, run_readModuleMaps_kept hc]
    rfl

theorem readSlot_fresh (engine : Engine) (h : s.answer? d.position k = none) :
    ∃ slots : Slots, (d.readSlot engine k).run s = (d.fetch engine s.calls k, d.fetched s slots) ∧
      ∀ l, slots.answer? l =
        if l = k then some (d.fetch engine s.calls k) else s.answer? d.position l := by
  cases k with
  | artifacts purpose =>
    have hc := Deferred.map_value?_eq_none.1 h
    refine ⟨_, ?_, fun l => Slots.answer?_set _ _ purpose l⟩
    simp only [readSlot, StateT.run_bind, run_readArtifacts_fresh hc]
    rfl
  | moduleMaps =>
    have hc := Deferred.map_value?_eq_none.1 h
    refine ⟨_, ?_, fun l => Slots.answer?_setModuleMaps _ _ l⟩
    simp only [readSlot, StateT.run_bind, run_readModuleMaps_fresh hc]
    rfl

theorem answer?_fetched (s : Evaluation) (slots : Slots) (i : Nat) (l : Slot) :
    (d.fetched s slots).answer? i l =
      if i = d.position then slots.answer? l else s.answer? i l :=
  Evaluation.answer?_setSlots s d.position i slots l

theorem run_slotEvaluated (d : Descriptor) (k : Slot) (s : Evaluation) :
    (d.slotEvaluated k).run s = ((s.answer? d.position k).isSome, s) := by
  cases k with
  | artifacts purpose => exact congrArg (·, s) (Deferred.isEvaluated_eq_isSome _ _)
  | moduleMaps => exact congrArg (·, s) (Deferred.isEvaluated_eq_isSome _ _)

end Descriptor

namespace Project

variable {p : Project} {engine : Engine} {s : Evaluation}

def Placed (p : Project) : Prop :=
  ∀ i : Fin p.binaries.length, (p.binary i).position = i

theorem binaries_of_wire {cwd root : Path} {m : Manifest} (h : wire cwd m root = .ok p) :
    ∃ build implementation, p.binaries = m.binaryIdentities.zipIdx.map fun (identity, i) =>
      Descriptor.of build implementation i identity := by
  obtain ⟨absolute, -, h⟩ := bind_eq_ok.1 h
  obtain ⟨moduleName, -, h⟩ := bind_eq_ok.1 h
  obtain ⟨dependencies, -, h⟩ := bind_eq_ok.1 h
  obtain ⟨-, -, h⟩ := bind_eq_ok.1 h
  cases h
  exact ⟨_, _, rfl⟩

theorem placed_of_wire {cwd root : Path} {m : Manifest} (h : wire cwd m root = .ok p) :
    p.Placed := by
  obtain ⟨build, implementation, hb⟩ := binaries_of_wire h
  intro i
  rw [binary, List.get_eq_getElem, List.getElem_of_eq hb, List.getElem_map, List.getElem_zipIdx]
  exact Nat.zero_add _

theorem run_readModuleName (p : Project) (s : Evaluation) :
    ∃ name cell, p.readModuleName.run s = (name, { s with moduleName := cell }) := by
  cases h : s.moduleName with
  | unevaluated =>
    refine ⟨p.moduleName.text, .evaluated p.moduleName.text, ?_⟩
    simp only [readModuleName, StateT.run_bind, StateT.run_get, pure_bind, h]
    rfl
  | evaluated name =>
    refine ⟨name, .evaluated name, ?_⟩
    simp only [readModuleName, StateT.run_bind, StateT.run_get, pure_bind, h]
    rfl

theorem eq_answer_of_slot? {q : Read p} {i : Fin p.binaries.length} {k : Slot}
    (hq : q.slot? = some (i, k)) : q = .answer i k := by
  cases q with
  | answer i k => cases hq; rfl
  | evaluated i k => cases hq
  | moduleName => cases hq
  | moduleFile i => cases hq

theorem read_aside (engine : Engine) {q : Read p} (hq : q.slot? = none) (s : Evaluation) :
    ((p.read engine q).run s).2.calls = s.calls ∧ ((p.read engine q).run s).2.slots = s.slots := by
  cases q with
  | answer i k => cases hq
  | evaluated i k =>
    simp only [read, StateT.run_bind, Descriptor.run_slotEvaluated]
    exact ⟨rfl, rfl⟩
  | moduleName =>
    obtain ⟨name, cell, hr⟩ := run_readModuleName p s
    simp only [read, StateT.run_bind, hr]
    exact ⟨rfl, rfl⟩
  | moduleFile i =>
    obtain ⟨name, cell, hr⟩ := run_readModuleName p s
    simp only [read, Descriptor.readModuleFile, StateT.run_bind, hr]
    exact ⟨rfl, rfl⟩

section Placed

variable (placed : p.Placed) {q : Read p} {i : Fin p.binaries.length} {k : Slot}
include placed

theorem read_again (engine : Engine) (hq : q.slot? = some (i, k)) {a : Answer}
    (found : s.answer? i k = some a) : (p.read engine q).run s = (a, s) := by
  rw [eq_answer_of_slot? hq]
  rw [← placed i] at found
  exact Descriptor.readSlot_kept found

theorem read_first (engine : Engine) (hq : q.slot? = some (i, k))
    (unread : s.answer? i k = none) :
    let after := (p.read engine q).run s
    after.1 = (p.binary i).fetch engine s.calls k ∧ after.2.calls = s.calls + 1 ∧
      ∀ (j : Fin p.binaries.length) l,
        after.2.answer? j l = if j = i ∧ l = k then some after.1 else s.answer? j l := by
  rw [eq_answer_of_slot? hq]
  rw [← placed i] at unread
  obtain ⟨slots, hr, filled⟩ := Descriptor.readSlot_fresh engine unread
  rw [show (p.read engine (.answer i k)).run s = _ from hr]
  refine ⟨rfl, rfl, fun j l => ?_⟩
  rw [Descriptor.answer?_fetched, placed i]
  by_cases hj : j = i
  · subst hj
    simp [filled, placed j]
  · rw [if_neg fun e => hj (Fin.ext e), if_neg fun h => hj h.1]

end Placed

@[simp] theorem run_readInTurn_nil (p : Project) (engine : Engine) (s : Evaluation) :
    (p.readInTurn engine []).run s = ([], s) := rfl

theorem run_readInTurn_cons (engine : Engine) (q : Read p) (reads : List (Read p))
    (s : Evaluation) : (p.readInTurn engine (q :: reads)).run s =
      let after := (p.read engine q).run s
      let rest := (p.readInTurn engine reads).run after.2
      ((q, after.1) :: rest.1, rest.2) := by
  simp only [readInTurn, List.mapM_cons, StateT.run_bind]
  rfl

def touched (log : List (Read p × Answer)) : List (Fin p.binaries.length × Slot) :=
  log.filterMap fun e => e.1.slot?

theorem touched_append_none {log : List (Read p × Answer)} {q : Read p} (hq : q.slot? = none)
    (a : Answer) : touched (log ++ [(q, a)]) = touched log := by
  simp [touched, hq]

theorem touched_append_some {log : List (Read p × Answer)} {q : Read p}
    {i : Fin p.binaries.length} {k : Slot} (hq : q.slot? = some (i, k)) (a : Answer) :
    touched (log ++ [(q, a)]) = touched log ++ [(i, k)] := by
  simp [touched, hq]

def Gave (log : List (Read p × Answer)) (i : Fin p.binaries.length) (k : Slot) (a : Answer) : Prop :=
  ∃ q, (q, a) ∈ log ∧ q.slot? = some (i, k)

theorem gave_append {log : List (Read p × Answer)} {q : Read p} {i : Fin p.binaries.length}
    {k : Slot} {a b : Answer} :
    Gave (log ++ [(q, b)]) i k a ↔ Gave log i k a ∨ q.slot? = some (i, k) ∧ a = b := by
  simp only [Gave, List.mem_append, List.mem_singleton, Prod.mk.injEq, or_and_right, exists_or]
  refine or_congr_right ⟨?_, ?_⟩
  · rintro ⟨_, ⟨rfl, rfl⟩, hq⟩
    exact ⟨hq, rfl⟩
  · rintro ⟨hq, rfl⟩
    exact ⟨q, ⟨rfl, rfl⟩, hq⟩

/-- The evaluation tells exactly what a log of reads and answers says of the slots, and the answers
are those that the engine gave to the requests of the slots. -/
structure Faithful (p : Project) (engine : Engine) (log : List (Read p × Answer))
    (s : Evaluation) : Prop where
  calls : s.calls = (touched log).toFinset.card
  kept : ∀ (i : Fin p.binaries.length) k a, s.answer? i k = some a ↔ Gave log i k a
  asked : ∀ (i : Fin p.binaries.length) k a, Gave log i k a →
    ∃ n < s.calls, a = (p.binary i).fetch engine n k

namespace Faithful

variable {log : List (Read p × Answer)}

theorem start (p : Project) (engine : Engine) : p.Faithful engine [] (.start p) := by
  constructor
  case calls => rfl
  case asked => simp [Gave]
  case kept =>
    intro i k a
    have h : (Evaluation.start p).answer? i k = none := by
      cases k with
      | artifacts purpose => cases purpose <;> rfl
      | moduleMaps => rfl
    simp [h, Gave]

theorem isSome_iff (h : p.Faithful engine log s) (i : Fin p.binaries.length) (k : Slot) :
    (s.answer? i k).isSome ↔ (i, k) ∈ touched log := by
  rw [Option.isSome_iff_exists]
  simp only [h.kept, Gave, touched, List.mem_filterMap, Prod.exists]
  exact exists_comm

section Step

variable {s' : Evaluation} {q : Read p} {i : Fin p.binaries.length} {k : Slot} {a : Answer}

theorem aside (h : p.Faithful engine log s) (hq : q.slot? = none) (calls : s'.calls = s.calls)
    (slots : s'.slots = s.slots) (a : Answer) : p.Faithful engine (log ++ [(q, a)]) s' where
  calls := by rw [calls, h.calls, touched_append_none hq]
  kept j l b := by
    rw [Evaluation.answer?, slots, gave_append, hq]
    exact (h.kept j l b).trans (by simp)
  asked j l b hg := by
    rw [gave_append, hq] at hg
    rw [calls]
    exact h.asked j l b (hg.resolve_right (by simp))

theorem again (h : p.Faithful engine log s) (hq : q.slot? = some (i, k))
    (found : s.answer? i k = some a) : p.Faithful engine (log ++ [(q, a)]) s := by
  have gave {j l b} : Gave (log ++ [(q, a)]) j l b ↔ Gave log j l b := by
    rw [gave_append, hq]
    refine ⟨fun hg => hg.elim id ?_, .inl⟩
    rintro ⟨hk, rfl⟩
    cases hk
    exact (h.kept i k _).1 found
  constructor
  case calls =>
    have old : (i, k) ∈ touched log := (h.isSome_iff i k).1 (by simp [found])
    rw [h.calls, touched_append_some hq]
    simp [old]
  case kept => exact fun j l b => (h.kept j l b).trans gave.symm
  case asked => exact fun j l b hg => h.asked j l b (gave.1 hg)

theorem first (h : p.Faithful engine log s) (hq : q.slot? = some (i, k))
    (unread : s.answer? i k = none) (calls : s'.calls = s.calls + 1)
    (answer : a = (p.binary i).fetch engine s.calls k)
    (filled : ∀ (j : Fin p.binaries.length) l,
      s'.answer? j l = if j = i ∧ l = k then some a else s.answer? j l) :
    p.Faithful engine (log ++ [(q, a)]) s' := by
  constructor
  case calls =>
    have new : (i, k) ∉ touched log := fun hm => by
      simpa [unread] using (h.isSome_iff i k).2 hm
    rw [calls, h.calls, touched_append_some hq]
    simp [new]
  case kept =>
    intro j l b
    rw [filled, gave_append, hq]
    by_cases hj : j = i ∧ l = k
    · obtain ⟨rfl, rfl⟩ := hj
      -- The slot was not read before, so this is the only answer it has.
      have none_before : ¬Gave log j l b := fun hg => by
        simpa [unread] using (h.kept j l b).2 hg
      simp [none_before, eq_comm]
    · rw [if_neg hj, h.kept]
      refine ⟨.inl, fun hg => hg.elim id ?_⟩
      rintro ⟨hk, -⟩
      cases hk
      exact absurd ⟨rfl, rfl⟩ hj
  case asked =>
    intro j l b hg
    rw [calls]
    rcases gave_append.1 hg with hg | ⟨hk, rfl⟩
    · obtain ⟨n, hn, hb⟩ := h.asked j l b hg
      exact ⟨n, Nat.lt_succ_of_lt hn, hb⟩
    · rw [hq] at hk
      cases hk
      exact ⟨s.calls, Nat.lt_succ_self _, answer⟩

end Step

theorem step (h : p.Faithful engine log s) (placed : p.Placed) (q : Read p) :
    p.Faithful engine (log ++ [(q, ((p.read engine q).run s).1)]) ((p.read engine q).run s).2 := by
  cases hq : q.slot? with
  | none =>
    obtain ⟨calls, slots⟩ := read_aside engine hq s
    exact h.aside hq calls slots _
  | some place =>
    obtain ⟨i, k⟩ := place
    cases he : s.answer? i k with
    | some a =>
      rw [read_again placed engine hq he]
      exact h.again hq he
    | none =>
      obtain ⟨answer, calls, filled⟩ := read_first placed engine hq he
      exact h.first hq he calls answer filled

theorem run (h : p.Faithful engine log s) (placed : p.Placed) (reads : List (Read p)) :
    p.Faithful engine (log ++ ((p.readInTurn engine reads).run s).1)
      ((p.readInTurn engine reads).run s).2 := by
  induction reads generalizing log s with
  | nil => rwa [run_readInTurn_nil, List.append_nil]
  | cons q reads ih =>
    have rest := ih (h.step placed q)
    rw [List.append_assoc] at rest
    rwa [run_readInTurn_cons]

end Faithful

theorem map_fst_readInTurn (p : Project) (engine : Engine) (reads : List (Read p))
    (s : Evaluation) : ((p.readInTurn engine reads).run s).1.map (·.1) = reads := by
  induction reads generalizing s with
  | nil => rfl
  | cons q reads ih =>
    rw [run_readInTurn_cons]
    exact congrArg (q :: ·) (ih _)

/-- Reads of a wired project in any order, with any engine: the engine is asked as often as there
are slots that were read, a slot says that it was evaluated exactly when it was read, and all reads
of one slot give one answer, which is the engine's to the request of that slot. -/
theorem reads_ask_once {cwd root : Path} {m : Manifest} (h : wire cwd m root = .ok p)
    (engine : Engine) (reads : List (Read p)) :
    let after := (p.readInTurn engine reads).run (.start p)
    let log := after.1
    let s := after.2
    (Evaluation.start p).calls = 0 ∧ log.map (·.1) = reads ∧
    s.calls = (reads.filterMap Read.slot?).toFinset.card ∧
    (∀ i k, (((p.binary i).slotEvaluated k).run s).1 = true ↔
      (i, k) ∈ reads.filterMap Read.slot?) ∧
    ∀ i k, ∀ q a, (q, a) ∈ log → q.slot? = some (i, k) →
      (∃ n < s.calls, a = (p.binary i).fetch engine n k) ∧
      ∀ q' a', (q', a') ∈ log → q'.slot? = some (i, k) → a' = a := by
  intro after log s
  have placed := placed_of_wire h
  have faithful : p.Faithful engine log s := (Faithful.start p engine).run placed reads
  have hlog : log.map (·.1) = reads := map_fst_readInTurn p engine reads _
  have htouched : touched log = reads.filterMap Read.slot? := by
    rw [← hlog, List.filterMap_map]
    rfl
  refine ⟨rfl, hlog, ?_, fun i k => ?_, ?_⟩
  · rw [← htouched]
    exact faithful.calls
  · rw [← htouched, ← faithful.isSome_iff, Descriptor.run_slotEvaluated, placed i]
  · intro i k q a hq hk
    refine ⟨faithful.asked i k a ⟨q, hq, hk⟩, fun q' a' hq' hk' => ?_⟩
    have first := (faithful.kept i k a).2 ⟨q, hq, hk⟩
    have later := (faithful.kept i k a').2 ⟨q', hq', hk'⟩
    exact Option.some.inj (later.symm.trans first)

def bare : Manifest where
  project := ⟨"app", none, ⟨"build"⟩, []⟩
  implementation := []
  binaries := []
  components := []

def bareBinaries : List Descriptor :=
  BinaryIdentity.conventional.zipIdx.map fun (identity, i) =>
    .of ⟨"/proj/build"⟩ (.ofList "implementation" []) i identity

def bareWired : Project where
  name := "app"
  root := ⟨"/proj"⟩
  moduleName := .derived "app"
  implementation := .ofList "implementation" []
  sources := .ofList []
  channels := (registerAll bareBinaries .empty).2
  binaries := bareBinaries

theorem wire_bare : wire ⟨"/"⟩ bare ⟨"/proj"⟩ = .ok bareWired := by
  decide +kernel

def changing : Engine
  | 0, _ => .error (.dependencyCycle "app")
  | n + 1, _ => .ok (List.replicate n ⟨.project ":core", ⟨"/core.h"⟩⟩)

def bareReads : List (Read bareWired) :=
  [.moduleFile ⟨1, by decide⟩, .answer ⟨0, by decide⟩ .moduleMaps,
    .evaluated ⟨2, by decide⟩ .moduleMaps, .answer ⟨2, by decide⟩ (.artifacts .link),
    .answer ⟨0, by decide⟩ .moduleMaps, .moduleName]

theorem reads_ask_once_bare : wire ⟨"/"⟩ bare ⟨"/proj"⟩ = .ok bareWired ∧
    ((bareWired.readInTurn changing bareReads).run (.start bareWired)).2.calls = 2 := by
  refine ⟨wire_bare, ?_⟩
  rw [(reads_ask_once wire_bare changing bareReads).2.2.1]
  decide

end Project

end NativeBuild
