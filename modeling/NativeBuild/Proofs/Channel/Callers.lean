import NativeBuild.Channel.Callers
import NativeBuild.Proofs.Dict

namespace NativeBuild

theorem Purpose.stem_append_inj {p q : Purpose} {x y : String} (h : p.stem ++ x = q.stem ++ y) :
    p = q ∧ x = y := by
  have h := congrArg String.toList h
  cases p <;> cases q <;> simp [Purpose.stem, String.toList_append] at h
  case compile.compile => exact ⟨rfl, String.toList_injective h⟩
  case link.link => exact ⟨rfl, String.toList_injective h⟩
  case runtime.runtime => exact ⟨rfl, String.toList_injective h⟩

namespace Channel

theorem value?_debuggable (p : Purpose) (b : BinaryIdentity) :
    (requestedAttributes p b).value? .debuggable = some b.debuggable := by
  simp [requestedAttributes, AttributeSet.declare, AttributeSet.value?, Dict.get?_insert,
    Attribute.optimized, Attribute.debuggable]
  rfl

theorem value?_optimized (p : Purpose) (b : BinaryIdentity) :
    (requestedAttributes p b).value? .optimized = some b.optimized := by
  simp [requestedAttributes, AttributeSet.declare, AttributeSet.value?, Dict.get?_insert,
    Attribute.optimized]
  rfl

theorem flags_eq {p : Purpose} {a b : BinaryIdentity} {base base' : DependencySet}
    (h : ofBinary p a base = ofBinary p b base') :
    a.debuggable = b.debuggable ∧ a.optimized = b.optimized := by
  have attributes : requestedAttributes p a = requestedAttributes p b :=
    congrArg Channel.attributes h
  constructor
  · have := value?_debuggable p a
    rw [attributes, value?_debuggable] at this
    exact (Option.some.inj this).symm
  · have := value?_optimized p a
    rw [attributes, value?_optimized] at this
    exact (Option.some.inj this).symm

end Channel

namespace Call

variable {call call' : Call}

theorem name_channel_inj {p q : Purpose} (h : (call.channel p).name = (call'.channel q).name) :
    p = q ∧ capitalize call.binary.name = capitalize call'.binary.name :=
  Purpose.stem_append_inj h

theorem name_channel_congr (h : capitalize call.binary.name = capitalize call'.binary.name)
    (p : Purpose) : (call.channel p).name = (call'.channel p).name :=
  congrArg (p.stem ++ ·) h

theorem channel_eq_of_compile (h : call.channel .compile = call'.channel .compile) (p : Purpose) :
    call.channel p = call'.channel p := by
  have name := (name_channel_inj (congrArg Channel.name h)).2
  have base : call.base = call'.base := congrArg Channel.base h
  obtain ⟨debuggable, optimized⟩ := Channel.flags_eq h
  simp only [channel, Channel.ofBinary, withStem, Channel.requestedAttributes, name, base,
    debuggable, optimized]

end Call

theorem BinaryChannels.eq_of_get {channels channels' : BinaryChannels}
    (h : ∀ p, channels.get p = channels'.get p) : channels = channels' := by
  cases channels
  cases channels'
  congr
  · exact h .compile
  · exact h .link
  · exact h .runtime

namespace Registry

variable {r r' : Registry} {c d : Channel}

def Binds (r : Registry) (c : Channel) : Prop :=
  r.get? c.name = some c

structure Obtained (r : Registry) (c d : Channel) (r' : Registry) : Prop where
  given : d = c
  free : ∀ x, r.get? c.name = some x → x = c
  bound : ∀ name, r'.get? name = if name = c.name then some c else r.get? name

theorem obtained (h : r.obtain c = .ok (d, r')) : r.Obtained c d r' := by
  unfold obtain at h
  cases hr : r.get? c.name with
  | none =>
    rw [hr] at h
    cases h
    refine ⟨rfl, by simp [hr], fun name => ?_⟩
    simp [Dict.get?_insert]
  | some x =>
    rw [hr] at h
    by_cases hx : x = c
    · simp only [hx, if_true] at h
      cases h
      subst hx
      refine ⟨rfl, by simp [hr], fun name => ?_⟩
      by_cases hn : name = x.name
      · simp [hn, hr]
      · simp [hn]
    · simp [hx] at h

theorem obtain_error {e : BuildError} (h : r.obtain c = .error e) :
    e = .channelConflict c.name ∧ ∃ x, r.get? c.name = some x ∧ x ≠ c := by
  unfold obtain at h
  cases hr : r.get? c.name with
  | none =>
    rw [hr] at h
    cases h
  | some x =>
    rw [hr] at h
    by_cases hx : x = c
    · simp [hx] at h
    · simp only [hx, if_false] at h
      cases h
      exact ⟨rfl, x, rfl, hx⟩

theorem Obtained.binds (h : r.Obtained c d r') : r'.Binds c := by
  simp [Binds, h.bound]

theorem Obtained.mono (h : r.Obtained c d r') {name : String} {x : Channel}
    (hx : r.get? name = some x) : r'.get? name = some x := by
  rw [h.bound]
  split
  · rename_i hn
    subst hn
    rw [h.free x hx]
  · exact hx

theorem Obtained.origin (h : r.Obtained c d r') {name : String} {x : Channel}
    (hx : r'.get? name = some x) : r.get? name = some x ∨ name = c.name ∧ x = c := by
  rw [h.bound] at hx
  split at hx
  · rename_i hn
    cases hx
    exact .inr ⟨hn, rfl⟩
  · exact .inl hx

end Registry

namespace Caller

variable {c : Caller} {p : Purpose}

def given : Caller → List (Purpose × Channel)
  | .called | .failed _ => []
  | .compiled compile => [(.compile, compile)]
  | .linked compile link => [(.compile, compile), (.link, link)]
  | .returned channels => channels.toList

def Begun (c : Caller) : Prop :=
  ∃ compile, (Purpose.compile, compile) ∈ c.given

theorem given_receive (h : c.next = some p) (channel : Channel) :
    (c.receive channel).given = c.given ++ [(p, channel)] := by
  cases c with
  | called => cases h; rfl
  | compiled compile => cases h; rfl
  | linked compile link => cases h; rfl
  | returned channels => cases h
  | failed e => cases h

theorem begun_or_first (h : c.next = some p) : c.Begun ∨ p = .compile ∧ c.given = [] := by
  cases c with
  | called => cases h; exact .inr ⟨rfl, rfl⟩
  | compiled compile => exact .inl ⟨compile, List.mem_cons_self⟩
  | linked compile link => exact .inl ⟨compile, List.mem_cons_self⟩
  | returned channels => cases h
  | failed e => cases h

theorem begun_receive (h : c.next = some p) (channel : Channel) : (c.receive channel).Begun := by
  unfold Begun
  rw [given_receive h]
  rcases begun_or_first h with ⟨compile, hc⟩ | ⟨rfl, -⟩
  · exact ⟨compile, List.mem_append_left _ hc⟩
  · exact ⟨channel, by simp⟩

theorem not_begun_failed (e : BuildError) : ¬(failed e).Begun := by
  rintro ⟨compile, h⟩
  cases h

theorem mem_given_returned (channels : BinaryChannels) (p : Purpose) :
    (p, channels.get p) ∈ (returned channels).given := by
  cases p <;> simp [given, BinaryChannels.toList, Purpose.all]

def stepsLeft : Caller → Nat
  | .called => 3
  | .compiled _ => 2
  | .linked _ _ => 1
  | .returned _ | .failed _ => 0

theorem stepsLeft_le (c : Caller) : c.stepsLeft ≤ 3 := by
  cases c <;> simp [stepsLeft]

theorem stepsLeft_of_next (h : c.next = none) : c.stepsLeft = 0 := by
  cases c with
  | called => cases h
  | compiled compile => cases h
  | linked compile link => cases h
  | returned channels => rfl
  | failed e => rfl

theorem stepsLeft_receive (h : c.next = some p) (channel : Channel) :
    (c.receive channel).stepsLeft = c.stepsLeft - 1 := by
  cases c with
  | called => rfl
  | compiled compile => rfl
  | linked compile link => rfl
  | returned channels => cases h
  | failed e => cases h

theorem ended_of_stepsLeft (h : c.stepsLeft = 0) :
    (∃ channels, c = .returned channels) ∨ ∃ e, c = .failed e := by
  cases c with
  | called => cases h
  | compiled compile => cases h
  | linked compile link => cases h
  | returned channels => exact .inl ⟨channels, rfl⟩
  | failed e => exact .inr ⟨e, rfl⟩

/-- Whatever a caller was given is its own channel and is bound; a failure is about the compile
channel. -/
structure Sound (r : Registry) (call : Call) (c : Caller) : Prop where
  given : ∀ p channel, (p, channel) ∈ c.given → channel = call.channel p ∧ r.Binds channel
  failed : ∀ e, c = .failed e → e = .channelConflict (call.channel .compile).name

theorem Sound.mono {r r' : Registry} {call : Call} (h : c.Sound r call)
    (hr : ∀ name x, r.get? name = some x → r'.get? name = some x) : c.Sound r' call where
  given p channel hc := by
    obtain ⟨own, bound⟩ := h.given p channel hc
    exact ⟨own, hr _ _ bound⟩
  failed := h.failed

theorem Sound.receive {r : Registry} {call : Call} (h : c.Sound r call) (hn : c.next = some p)
    (bound : r.Binds (call.channel p)) : (c.receive (call.channel p)).Sound r call where
  given q channel hq := by
    rw [given_receive hn, List.mem_append] at hq
    rcases hq with hq | hq
    · exact h.given q channel hq
    · obtain ⟨rfl, rfl⟩ := Prod.mk.inj (List.mem_singleton.1 hq)
      exact ⟨rfl, bound⟩
  failed error he := by
    have hb := begun_receive hn (call.channel p)
    rw [he] at hb
    exact absurd hb (not_begun_failed error)

theorem Sound.refused (r : Registry) (call : Call) :
    Sound r call (.failed (.channelConflict (call.channel .compile).name)) where
  given _ _ hc := nomatch hc
  failed _ he := by
    cases he
    rfl

theorem Sound.binds_compile {r : Registry} {call : Call} (h : c.Sound r call) (hc : c.Begun) :
    r.Binds (call.channel .compile) := by
  obtain ⟨compile, hm⟩ := hc
  obtain ⟨rfl, bound⟩ := h.given _ _ hm
  exact bound

end Caller

theorem run_registerChannel (c : Channel) (r : Registry) : (registerChannel c).run.run r =
    match r.register c with
    | .ok r => (.ok (), r)
    | .error e => (.error e, r) := by
  change (match r.register c with
    | .ok r => set r
    | .error e => throw e : Registering Unit).run.run r = _
  cases r.register c <;> rfl

section Alone

variable {m : Registering Unit} {c : Channel} {r r' : Registry}

theorem run_register_ok (h : r.register c = .ok r') :
    (do registerChannel c; m).run.run r = m.run.run r' := by
  have hc : (registerChannel c).run.run r = (.ok (), r') := by rw [run_registerChannel, h]
  rw [ExceptT.run_bind, StateT.run_bind, hc]
  rfl

theorem run_register_error {e : BuildError} (h : r.register c = .error e) :
    (do registerChannel c; m).run.run r = (.error e, r) := by
  have hc : (registerChannel c).run.run r = (.error e, r) := by rw [run_registerChannel, h]
  rw [ExceptT.run_bind, StateT.run_bind, hc]
  rfl

end Alone

namespace Callers

variable {calls : Nat → Call} {s : Callers} {i j : Nat} {p : Purpose}

theorem step_of_register_ok {r : Registry} (hn : (s.caller i).next = some p)
    (hr : s.registry.register ((calls i).channel p) = .ok r) :
    step calls s i =
      { s.move i ((s.caller i).receive ((calls i).channel p)) with registry := r } := by
  simp [step, hn, Registry.obtain_eq, hr, Except.map]

theorem step_of_register_error {e : BuildError} (hn : (s.caller i).next = some p)
    (hr : s.registry.register ((calls i).channel p) = .error e) :
    step calls s i = s.move i (.failed e) := by
  simp [step, hn, Registry.obtain_eq, hr, Except.map]

theorem step_ended (hn : (s.caller i).next = none) : step calls s i = s := by
  simp [step, hn]

def rest (call : Call) : Caller → Registering Unit
  | .called => (BinaryChannels.of call.binary call.base).register
  | .compiled _ => do
    registerChannel (call.channel .link)
    registerChannel (call.channel .runtime)
  | .linked _ _ => registerChannel (call.channel .runtime)
  | .returned _ => return
  | .failed e => throw e

theorem rest_next {c : Caller} (hn : c.next = some p) (call : Call) : rest call c =
    (do registerChannel (call.channel p); rest call (c.receive (call.channel p))) := by
  cases c with
  | called => cases hn; rfl
  | compiled compile => cases hn; rfl
  | linked compile link => cases hn; exact (bind_pure_unit).symm
  | returned channels => cases hn
  | failed e => cases hn

theorem run_rest_step (calls : Nat → Call) (s : Callers) (i : Nat) :
    (rest (calls i) ((step calls s i).caller i)).run.run (step calls s i).registry =
      (rest (calls i) (s.caller i)).run.run s.registry := by
  cases hn : (s.caller i).next with
  | none => rw [step_ended hn]
  | some p =>
    rw [rest_next hn]
    cases hr : s.registry.register ((calls i).channel p) with
    | ok r =>
      rw [run_register_ok hr, step_of_register_ok hn hr]
      simp only [caller_move_self]
    | error e =>
      rw [run_register_error hr, step_of_register_error hn hr, caller_move_self]
      rfl

/-- A caller that takes its steps alone comes to what registering its channels in one go does. -/
theorem run_alone (calls : Nat → Call) (r : Registry) (i n : Nat) :
    let s := run calls (start r) (List.replicate n i)
    let whole := (BinaryChannels.of (calls i).binary (calls i).base).register.run.run r
    (∀ channels, s.caller i = .returned channels → whole = (.ok (), s.registry)) ∧
      ∀ e, s.caller i = .failed e → whole = (.error e, s.registry) := by
  intro s whole
  have kept : ∀ t : Callers, (rest (calls i) ((run calls t (List.replicate n i)).caller i)).run.run
      (run calls t (List.replicate n i)).registry =
        (rest (calls i) (t.caller i)).run.run t.registry := by
    induction n with
    | zero => exact fun t => rfl
    | succ n ih => exact fun t => (ih _).trans (run_rest_step calls t i)
  have hs : whole = (rest (calls i) (s.caller i)).run.run s.registry := (kept (start r)).symm
  constructor
  · intro channels hc
    rw [hs, hc]
    rfl
  · intro e hc
    rw [hs, hc]
    rfl

theorem step_cases (calls : Nat → Call) (s : Callers) (i : Nat) :
    ((s.caller i).next = none ∧ step calls s i = s) ∨
    (∃ p r, (s.caller i).next = some p ∧
      s.registry.Obtained ((calls i).channel p) ((calls i).channel p) r ∧
      step calls s i =
        { s.move i ((s.caller i).receive ((calls i).channel p)) with registry := r }) ∨
    ∃ p x, (s.caller i).next = some p ∧ s.registry.get? ((calls i).channel p).name = some x ∧
      x ≠ (calls i).channel p ∧
      step calls s i = s.move i (.failed (.channelConflict ((calls i).channel p).name)) := by
  unfold step
  cases hn : (s.caller i).next with
  | none => exact .inl ⟨rfl, rfl⟩
  | some p =>
    cases ho : s.registry.obtain ((calls i).channel p) with
    | ok given =>
      obtain ⟨c, r⟩ := given
      have h := Registry.obtained ho
      obtain rfl := h.given
      exact .inr (.inl ⟨p, r, rfl, h, by simp [ho]⟩)
    | error e =>
      obtain ⟨rfl, x, hx, hne⟩ := Registry.obtain_error ho
      exact .inr (.inr ⟨p, x, rfl, hx, hne, by simp [ho]⟩)

theorem caller_step_of_ne (h : j ≠ i) : (step calls s i).caller j = s.caller j := by
  rcases step_cases calls s i with ⟨-, e⟩ | ⟨p, r, -, -, e⟩ | ⟨p, x, -, -, -, e⟩
  · rw [e]
  · rw [e]
    exact caller_move_of_ne s h _
  · rw [e, caller_move_of_ne s h]

theorem stepsLeft_step (calls : Nat → Call) (s : Callers) (i : Nat) :
    ((step calls s i).caller i).stepsLeft ≤ (s.caller i).stepsLeft - 1 := by
  rcases step_cases calls s i with ⟨hn, e⟩ | ⟨p, r, hn, -, e⟩ | ⟨p, x, -, -, -, e⟩
  · have ended := Caller.stepsLeft_of_next hn
    rw [e]
    omega
  · rw [e]
    simp only [caller_move_self, Caller.stepsLeft_receive hn]
    exact Nat.le_refl _
  · rw [e, caller_move_self]
    exact Nat.zero_le _

theorem stepsLeft_run (calls : Nat → Call) (s : Callers) (i : Nat) (schedule : List Nat) :
    ((run calls s schedule).caller i).stepsLeft ≤ (s.caller i).stepsLeft - schedule.count i := by
  induction schedule generalizing s with
  | nil => exact Nat.le_refl _
  | cons j schedule ih =>
    have later := ih (step calls s j)
    by_cases hj : j = i
    · subst hj
      have own := stepsLeft_step calls s j
      rw [List.count_cons_self]
      exact Nat.le_trans later (by omega)
    · rw [caller_step_of_ne (Ne.symm hj)] at later
      rw [List.count_cons_of_ne hj]
      exact later

/-- After three steps of its own a caller has returned or failed, whatever the others do. -/
theorem run_ends (calls : Nat → Call) (s : Callers) {schedule : List Nat}
    (h : 3 ≤ schedule.count i) :
    (∃ channels, (run calls s schedule).caller i = .returned channels) ∨
      ∃ e, (run calls s schedule).caller i = .failed e := by
  apply Caller.ended_of_stepsLeft
  have left := stepsLeft_run calls s i schedule
  have most := (s.caller i).stepsLeft_le
  omega

/-- The channels that are bound are those of callers, none of them without the compile channel that
goes with it, and the callers hold what they were given. -/
structure Coherent (calls : Nat → Call) (s : Callers) : Prop where
  origin : ∀ name c, s.registry.get? name = some c → ∃ i p, c = (calls i).channel p ∧
    name = c.name ∧ s.registry.Binds ((calls i).channel .compile)
  sound : ∀ i, (s.caller i).Sound s.registry (calls i)

theorem coherent_start (calls : Nat → Call) : Coherent calls (start .empty) where
  origin name c h := by
    cases h
  sound i := ⟨by simp [start, Caller.given], by simp [start]⟩

namespace Coherent

theorem own (h : Coherent calls s) (hc : s.registry.Binds ((calls i).channel .compile))
    {x : Channel} (hx : s.registry.get? ((calls i).channel p).name = some x) :
    x = (calls i).channel p := by
  obtain ⟨j, q, rfl, hn, hj⟩ := h.origin _ _ hx
  obtain ⟨rfl, same⟩ := Call.name_channel_inj hn
  unfold Registry.Binds at hc hj
  rw [Call.name_channel_congr same, hj] at hc
  exact Call.channel_eq_of_compile (Option.some.inj hc) p

theorem bound (h : Coherent calls s) {r : Registry} (hn : (s.caller i).next = some p)
    (ho : s.registry.Obtained ((calls i).channel p) ((calls i).channel p) r) :
    Coherent calls
      { s.move i ((s.caller i).receive ((calls i).channel p)) with registry := r } := by
  constructor
  case origin =>
    intro name c hc
    rcases ho.origin hc with hc | ⟨rfl, rfl⟩
    · obtain ⟨j, q, own, rfl, bound⟩ := h.origin name c hc
      exact ⟨j, q, own, rfl, ho.mono bound⟩
    -- It is the compile channel itself, or that was given to the caller before.
    · refine ⟨i, p, rfl, rfl, ?_⟩
      rcases Caller.begun_or_first hn with hb | ⟨rfl, -⟩
      · exact ho.mono ((h.sound i).binds_compile hb)
      · exact ho.binds
  case sound =>
    intro j
    have kept := (h.sound j).mono fun _ _ => ho.mono
    by_cases hj : j = i
    · subst hj
      simp only [caller_move_self]
      exact kept.receive hn ho.binds
    · simpa only [caller_move_of_ne s hj] using kept

theorem refused (h : Coherent calls s) {x : Channel} (hn : (s.caller i).next = some p)
    (hx : s.registry.get? ((calls i).channel p).name = some x) (hne : x ≠ (calls i).channel p) :
    Coherent calls
      (s.move i (.failed (.channelConflict ((calls i).channel p).name))) := by
  have first : p = .compile := by
    -- Whoever has its compile channel finds its other names free or bound as its own.
    rcases Caller.begun_or_first hn with hb | ⟨rfl, -⟩
    · exact absurd (h.own ((h.sound i).binds_compile hb) hx) hne
    · rfl
  subst first
  refine ⟨h.origin, fun j => ?_⟩
  by_cases hj : j = i
  · subst hj
    rw [caller_move_self]
    exact .refused _ _
  · rw [caller_move_of_ne s hj]
    exact h.sound j

theorem step (h : Coherent calls s) (i : Nat) : Coherent calls (step calls s i) := by
  rcases step_cases calls s i with ⟨-, e⟩ | ⟨p, r, hn, ho, e⟩ | ⟨p, x, hn, hx, hne, e⟩
  · rwa [e]
  · rw [e]
    exact h.bound hn ho
  · rw [e]
    exact h.refused hn hx hne

theorem begun_step (h : Coherent calls s) (hb : (s.caller i).Begun) (j : Nat) :
    ((Callers.step calls s j).caller i).Begun := by
  by_cases hj : i = j
  · subst hj
    rcases step_cases calls s i with ⟨-, e⟩ | ⟨p, r, hn, ho, e⟩ | ⟨p, x, hn, hx, hne, e⟩
    · rwa [e]
    · rw [e]
      simp only [caller_move_self]
      exact Caller.begun_receive hn _
    · exact absurd (h.own ((h.sound i).binds_compile hb) hx) hne
  · rwa [caller_step_of_ne hj]

theorem run (h : Coherent calls s) (schedule : List Nat) :
    Coherent calls (run calls s schedule) := by
  induction schedule generalizing s with
  | nil => exact h
  | cons i schedule ih => exact ih (h.step i)

theorem begun_run (h : Coherent calls s) (hb : (s.caller i).Begun) (schedule : List Nat) :
    ((Callers.run calls s schedule).caller i).Begun := by
  induction schedule generalizing s with
  | nil => exact hb
  | cons j schedule ih => exact ih (h.step j) (h.begun_step hb j)

end Coherent

theorem registry_step (h : ¬((step calls s i).caller i).Begun) :
    (step calls s i).registry = s.registry := by
  rcases step_cases calls s i with ⟨-, e⟩ | ⟨p, r, hn, ho, e⟩ | ⟨p, x, hn, hx, hne, e⟩
  · rw [e]
  · rw [e] at h
    simp only [caller_move_self] at h
    exact absurd (Caller.begun_receive hn _) h
  · rw [e]
    rfl

theorem run_append (calls : Nat → Call) (s : Callers) (before after : List Nat) :
    run calls s (before ++ after) = run calls (run calls s before) after :=
  List.foldl_append

namespace Coherent

variable {q : Purpose} {word : String} {c d : Channel}

theorem of_stem (h : Coherent calls s) (hc : s.registry.get? (p.stem ++ word) = some c) :
    ∃ i, word = capitalize (calls i).binary.name ∧ c = (calls i).channel p ∧
      s.registry.Binds ((calls i).channel .compile) := by
  obtain ⟨i, q, rfl, hn, bound⟩ := h.origin _ _ hc
  obtain ⟨rfl, rfl⟩ := Purpose.stem_append_inj hn
  exact ⟨i, rfl, rfl, bound⟩

theorem of_stems (h : Coherent calls s) (hc : s.registry.get? (p.stem ++ word) = some c)
    (hd : s.registry.get? (q.stem ++ word) = some d) :
    ∃ i, c = (calls i).channel p ∧ d = (calls i).channel q := by
  obtain ⟨i, rfl, rfl, bound⟩ := h.of_stem hc
  exact ⟨i, rfl, h.own bound hd⟩

theorem same_flags (h : Coherent calls s) (hc : s.registry.get? (p.stem ++ word) = some c)
    (hd : s.registry.get? (q.stem ++ word) = some d) :
    c.attributes.value? .debuggable = d.attributes.value? .debuggable ∧
      c.attributes.value? .optimized = d.attributes.value? .optimized ∧ c.base = d.base := by
  obtain ⟨i, rfl, rfl⟩ := h.of_stems hc hd
  refine ⟨?_, ?_, rfl⟩
  · exact (Channel.value?_debuggable p _).trans (Channel.value?_debuggable q _).symm
  · exact (Channel.value?_optimized p _).trans (Channel.value?_optimized q _).symm

theorem registered_of_returned (h : Coherent calls s) {channels : BinaryChannels}
    (hi : s.caller i = .returned channels) (p : Purpose) :
    s.registry.get? (p.stem ++ capitalize (calls i).binary.name) = some (channels.get p) := by
  have hp := Caller.mem_given_returned channels p
  rw [← hi] at hp
  obtain ⟨own, bound⟩ := (h.sound i).given _ _ hp
  rw [own] at bound ⊢
  exact bound

end Coherent

theorem registry_of_failed {e : BuildError} {before after : List Nat}
    (hf : (run calls (start .empty) (before ++ i :: after)).caller i = .failed e) :
    (run calls (start .empty) (before ++ [i])).registry =
      (run calls (start .empty) before).registry := by
  have coherent : Coherent calls (run calls (start .empty) (before ++ [i])) :=
    (coherent_start calls).run _
  have later : ¬((run calls (start .empty) (before ++ [i])).caller i).Begun := by
    intro hb
    -- A caller that has its compile channel keeps it to the end, so it does not fail.
    have := coherent.begun_run hb after
    rw [← run_append, List.append_assoc, List.singleton_append, hf] at this
    exact Caller.not_begun_failed e this
  rw [run_append] at later ⊢
  exact registry_step later

/-- However the steps of callers on one registry are interleaved: the channels that carry one
binary's capitalized name have the same flags and bases, none of them is there without the compile
channel, a caller that fails names its compile channel and has bound nothing, and callers that
return for one capitalized name return the channels that are registered. -/
theorem run_interleaved (calls : Nat → Call) (schedule : List Nat) :
    let s := run calls (start .empty) schedule
    (∀ name c, s.registry.get? name = some c → ∃ i p, c = (calls i).channel p ∧
      name = p.stem ++ capitalize (calls i).binary.name) ∧
    (∀ (p q : Purpose) word c d, s.registry.get? (p.stem ++ word) = some c →
      s.registry.get? (q.stem ++ word) = some d →
      c.attributes.value? .debuggable = d.attributes.value? .debuggable ∧
      c.attributes.value? .optimized = d.attributes.value? .optimized ∧ c.base = d.base) ∧
    (∀ (p : Purpose) word c, s.registry.get? (p.stem ++ word) = some c →
      ∃ d, s.registry.get? (Purpose.compile.stem ++ word) = some d) ∧
    (∀ i e, s.caller i = .failed e →
      e = .channelConflict (Purpose.compile.stem ++ capitalize (calls i).binary.name) ∧
      ∀ before after, schedule = before ++ i :: after →
        (run calls (start .empty) (before ++ [i])).registry =
          (run calls (start .empty) before).registry) ∧
    ∀ i channels, s.caller i = .returned channels →
      (∀ p : Purpose, s.registry.get? (p.stem ++ capitalize (calls i).binary.name) =
        some (channels.get p)) ∧
      ∀ j channels', s.caller j = .returned channels' →
        capitalize (calls i).binary.name = capitalize (calls j).binary.name →
        channels = channels' := by
  intro s
  have coherent : Coherent calls s := (coherent_start calls).run schedule
  refine ⟨?_, ?_, ?_, ?_, ?_⟩
  · intro name c hc
    obtain ⟨i, p, rfl, hn, -⟩ := coherent.origin name c hc
    exact ⟨i, p, rfl, hn⟩
  · exact fun p q word c d hc hd => coherent.same_flags hc hd
  · intro p word c hc
    obtain ⟨i, rfl, -, bound⟩ := coherent.of_stem hc
    exact ⟨_, bound⟩
  · intro i e hi
    refine ⟨(coherent.sound i).failed e hi, ?_⟩
    rintro before after rfl
    exact registry_of_failed hi
  · intro i channels hi
    refine ⟨coherent.registered_of_returned hi, fun j channels' hj same => ?_⟩
    apply BinaryChannels.eq_of_get
    intro p
    have hp := coherent.registered_of_returned hi p
    rw [same, coherent.registered_of_returned hj p] at hp
    exact (Option.some.inj hp).symm

end Callers

end NativeBuild
