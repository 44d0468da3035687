import Mathlib.Data.List.Dedup
import Mathlib.Data.List.Nodup
import NativeBuild.Proofs.Channel.Callers

namespace NativeBuild

/-- Two binaries whose channels have the same names have the same flags. -/
def BinaryIdentity.Compatible (a b : BinaryIdentity) : Prop :=
  capitalize a.name = capitalize b.name → a.debuggable = b.debuggable ∧ a.optimized = b.optimized

instance (a b : BinaryIdentity) : Decidable (a.Compatible b) :=
  inferInstanceAs (Decidable (_ → _ ∧ _))

@[simp] theorem Purpose.mem_all (p : Purpose) : p ∈ Purpose.all := by
  cases p <;> simp [Purpose.all]

namespace Channel

variable {p q : Purpose} {a b : BinaryIdentity} {base : DependencySet}

theorem ofBinary_eq_of_name (h : a.Compatible b)
    (hn : (ofBinary p a base).name = (ofBinary q b base).name) :
    ofBinary p a base = ofBinary q b base := by
  obtain ⟨rfl, word⟩ := Purpose.stem_append_inj hn
  obtain ⟨debuggable, optimized⟩ := h word
  simp only [ofBinary, withStem, requestedAttributes, word, debuggable, optimized]

theorem ofBinary_ne_of_name (h : ¬a.Compatible b) (p : Purpose) (base : DependencySet) :
    (ofBinary p a base).name = (ofBinary p b base).name ∧ ofBinary p a base ≠ ofBinary p b base := by
  obtain ⟨word, flags⟩ := Classical.not_imp.1 h
  exact ⟨congrArg (p.stem ++ ·) word, fun e => flags (flags_eq e)⟩

def ofBinaries (base : DependencySet) (binaries : List BinaryIdentity) : List Channel :=
  binaries.flatMap fun b => Purpose.all.map fun p => ofBinary p b base

theorem mem_ofBinaries {binaries : List BinaryIdentity} {c : Channel} :
    c ∈ ofBinaries base binaries ↔ ∃ b ∈ binaries, ∃ p, c = ofBinary p b base := by
  simp [ofBinaries, eq_comm]

theorem ofBinaries_concat (base : DependencySet) (binaries : List BinaryIdentity)
    (b : BinaryIdentity) : ofBinaries base (binaries ++ [b]) = ofBinaries base binaries ++
      [ofBinary .compile b base] ++ [ofBinary .link b base] ++ [ofBinary .runtime b base] := by
  simp [ofBinaries, Purpose.all]

end Channel

namespace Registry

variable {r : Registry} {cs : List Channel} {c d : Channel}

def Holds (r : Registry) (cs : List Channel) : Prop :=
  ∀ name c, r.get? name = some c ↔ c ∈ cs ∧ c.name = name

theorem holds_empty : Holds .empty [] := by
  intro name c
  simp

theorem Holds.register_ok (h : r.Holds cs) (hc : ∀ d ∈ cs, d.name = c.name → d = c) :
    ∃ r', r.register c = .ok r' ∧ r'.Holds (cs ++ [c]) := by
  cases hr : r.get? c.name with
  | none =>
    refine ⟨r.insert c.name c, by simp [register, hr], fun name d => ?_⟩
    rw [Dict.get?_insert, List.mem_append, List.mem_singleton]
    by_cases hn : name = c.name
    · subst hn
      simp only [Std.compare_self, if_true, Option.some.injEq]
      constructor
      · rintro rfl
        exact ⟨.inr rfl, rfl⟩
      · rintro ⟨hd | rfl, hn⟩
        · exact (hc d hd hn).symm
        · rfl
    · simp only [Std.LawfulEqOrd.compare_eq_iff_eq, hn, if_false, h name d]
      constructor
      · rintro ⟨hd, rfl⟩
        exact ⟨.inl hd, rfl⟩
      · rintro ⟨hd | rfl, rfl⟩
        · exact ⟨hd, rfl⟩
        · exact absurd rfl hn
  | some x =>
    obtain ⟨hx, hn⟩ := (h c.name x).1 hr
    obtain rfl := hc x hx hn
    refine ⟨r, by simp [register, hr], fun name d => ?_⟩
    rw [h name d, List.mem_append, List.mem_singleton]
    constructor
    · rintro ⟨hd, rfl⟩
      exact ⟨.inl hd, rfl⟩
    · rintro ⟨hd | rfl, rfl⟩
      · exact ⟨hd, rfl⟩
      · exact ⟨hx, rfl⟩

theorem Holds.register_conflict (h : r.Holds cs) (hd : d ∈ cs) (hn : d.name = c.name)
    (hne : d ≠ c) : r.register c = .error (.channelConflict c.name) := by
  have hr : r.get? c.name = some d := (h c.name d).2 ⟨hd, hn⟩
  simp [register, hr, hne]

section Binaries

variable {base : DependencySet} {seen : List BinaryIdentity} {a b : BinaryIdentity}

theorem Holds.register_binary (h : r.Holds (Channel.ofBinaries base seen))
    (hb : ∀ a ∈ seen, a.Compatible b) :
    ∃ r', (BinaryChannels.of b base).register.run.run r = (.ok (), r') ∧
      r'.Holds (Channel.ofBinaries base (seen ++ [b])) := by
  have same : b.Compatible b := fun _ => ⟨rfl, rfl⟩
  have old : ∀ (p : Purpose), ∀ d ∈ Channel.ofBinaries base seen,
      d.name = (Channel.ofBinary p b base).name → d = .ofBinary p b base := by
    intro p d hd
    obtain ⟨a, ha, q, rfl⟩ := Channel.mem_ofBinaries.1 hd
    exact Channel.ofBinary_eq_of_name (hb a ha)
  -- What the binary itself has registered so far is not in its way either.
  have own : ∀ (p q : Purpose), (Channel.ofBinary q b base).name = (Channel.ofBinary p b base).name →
      Channel.ofBinary q b base = .ofBinary p b base :=
    fun p q => Channel.ofBinary_eq_of_name same
  obtain ⟨r₁, e₁, h₁⟩ := h.register_ok (old .compile)
  obtain ⟨r₂, e₂, h₂⟩ := h₁.register_ok (c := .ofBinary .link b base) (by
    rw [List.forall_mem_append, List.forall_mem_singleton]
    exact ⟨old .link, own .link .compile⟩)
  obtain ⟨r₃, e₃, h₃⟩ := h₂.register_ok (c := .ofBinary .runtime b base) (by
    rw [List.forall_mem_append, List.forall_mem_append, List.forall_mem_singleton,
      List.forall_mem_singleton]
    exact ⟨⟨old .runtime, own .runtime .compile⟩, own .runtime .link⟩)
  refine ⟨r₃, ?_, ?_⟩
  · have steps : (BinaryChannels.of b base).register.run.run r =
        (registerChannel (.ofBinary .runtime b base)).run.run r₂ :=
      (run_register_ok e₁).trans (run_register_ok e₂)
    rw [steps, run_registerChannel, e₃]
  · rw [Channel.ofBinaries_concat]
    exact h₃

theorem Holds.register_binary_conflict (h : r.Holds (Channel.ofBinaries base seen)) (ha : a ∈ seen)
    (hb : ¬a.Compatible b) : (BinaryChannels.of b base).register.run.run r =
      (.error (.channelConflict (Purpose.compile.stem ++ capitalize b.name)), r) := by
  obtain ⟨hn, hne⟩ := Channel.ofBinary_ne_of_name hb .compile base
  have hm : Channel.ofBinary .compile a base ∈ Channel.ofBinaries base seen :=
    Channel.mem_ofBinaries.2 ⟨a, ha, .compile, rfl⟩
  exact run_register_error (h.register_conflict hm hn hne)

theorem Holds.keys_perm (h : r.Holds (Channel.ofBinaries base seen)) :
    r.keys.Perm ((seen.map fun b => capitalize b.name).dedup.flatMap fun word =>
      Purpose.all.map fun p => p.stem ++ word) := by
  refine (List.perm_ext_iff_of_nodup r.nodup_keys ?_).2 fun name => ?_
  · rw [List.nodup_flatMap]
    refine ⟨fun word _ => ?_, (List.nodup_dedup _).imp fun {v w} hne => ?_⟩
    · refine List.Nodup.map (fun p q e => (Purpose.stem_append_inj e).1) ?_
      decide
    · intro name hv hw
      obtain ⟨p, -, rfl⟩ := List.mem_map.1 hv
      obtain ⟨q, -, e⟩ := List.mem_map.1 hw
      exact hne (Purpose.stem_append_inj e).2.symm
  · simp only [Dict.mem_keys_iff, h name, Channel.mem_ofBinaries, List.mem_flatMap, List.mem_dedup,
      List.mem_map, Purpose.mem_all, true_and]
    constructor
    · rintro ⟨c, ⟨b, hb, p, rfl⟩, rfl⟩
      exact ⟨_, ⟨b, hb, rfl⟩, p, rfl⟩
    · rintro ⟨_, ⟨b, hb, rfl⟩, p, rfl⟩
      exact ⟨_, ⟨b, hb, p, rfl⟩, rfl⟩

end Binaries

end Registry

end NativeBuild
