import Mathlib.Data.List.Forall2

universe u v w z

namespace NativeBuild

section Bind

variable {ε : Type u} {α β : Type v}

theorem bind_eq_ok {x : Except ε α} {f : α → Except ε β} {b : β} :
    x >>= f = .ok b ↔ ∃ a, x = .ok a ∧ f a = .ok b := by
  cases x with
  | error e => simp [bind, Except.bind]
  | ok a => simp [bind, Except.bind]

theorem bind_eq_error {x : Except ε α} {f : α → Except ε β} {e : ε} :
    x >>= f = .error e ↔ x = .error e ∨ ∃ a, x = .ok a ∧ f a = .error e := by
  cases x with
  | error e => simp [bind, Except.bind]
  | ok a => simp [bind, Except.bind]

theorem error_bind (e : ε) (f : α → Except ε β) : (.error e : Except ε α) >>= f = .error e := rfl

theorem ok_bind (a : α) (f : α → Except ε β) : (.ok a : Except ε α) >>= f = f a := rfl

theorem bind_pure_eq_error {x : Except ε α} {f : α → β} {e : ε} :
    (x >>= fun a => pure (f a)) = .error e ↔ x = .error e := by
  rw [bind_eq_error]
  simp [pure, Except.pure]

end Bind

theorem mapError_eq_ok {ε : Type u} {ε' : Type v} {α : Type w} {x : Except ε α} {f : ε → ε'}
    {a : α} : x.mapError f = .ok a ↔ x = .ok a := by
  cases x with
  | error e => simp [Except.mapError]
  | ok b => simp [Except.mapError]

theorem mapError_bind {ε ε' : Type u} {α β : Type v} (x : Except ε α) (f : α → Except ε β)
    (g : ε → ε') : (x >>= f).mapError g = x.mapError g >>= fun a => (f a).mapError g := by
  cases x with
  | error e => rfl
  | ok a => rfl

theorem mapError_eq_self {ε : Type u} {α : Type w} {x : Except ε α} {g : ε → ε}
    (h : ∀ e, x = .error e → g e = e) : x.mapError g = x := by
  cases x with
  | error e => exact congrArg Except.error (h e rfl)
  | ok a => rfl

section Alike

variable {ε : Type u} {ε' : Type v} {α : Type w} {β : Type z} {x : Except ε α} {y : Except ε' β}

theorem ok_alike {R : α → β → Prop} {S : β → α → Prop}
    (h : ∀ a, x = .ok a → ∃ b, y = .ok b ∧ R a b) (h' : ∀ b, y = .ok b → ∃ a, x = .ok a ∧ S b a) :
    ((∃ a, x = .ok a) ↔ ∃ b, y = .ok b) ∧ ∀ a b, x = .ok a → y = .ok b → R a b := by
  refine ⟨⟨?_, ?_⟩, fun a b ha hb => ?_⟩
  · rintro ⟨a, ha⟩
    obtain ⟨b, hb, -⟩ := h a ha
    exact ⟨b, hb⟩
  · rintro ⟨b, hb⟩
    obtain ⟨a, ha, -⟩ := h' b hb
    exact ⟨a, ha⟩
  · obtain ⟨c, hc, related⟩ := h a ha
    cases hc.symm.trans hb
    exact related

theorem ok_of_error_iff {y : Except ε β} (h : ∀ e, x = .error e ↔ y = .error e) :
    (∃ a, x = .ok a) ↔ ∃ b, y = .ok b := by
  cases x with
  | error e => simp [(h e).1 rfl]
  | ok a =>
    cases y with
    | error e => cases (h e).2 rfl
    | ok b => simp

end Alike

section MapM

variable {ε : Type u} {α : Type w} {β : Type v} {f : α → Except ε β}

theorem mapM_cons_eq_ok {a : α} {l : List α} {bs : List β} :
    (a :: l).mapM f = .ok bs ↔ ∃ b rest, f a = .ok b ∧ l.mapM f = .ok rest ∧ b :: rest = bs := by
  rw [List.mapM_cons, bind_eq_ok]
  simp only [bind_eq_ok, pure, Except.pure, Except.ok.injEq, exists_and_left]

theorem mapM_eq_ok_iff {l : List α} :
    (∃ bs, l.mapM f = .ok bs) ↔ ∀ a ∈ l, ∃ b, f a = .ok b := by
  induction l with
  | nil => simp [pure, Except.pure]
  | cons a l ih =>
    rw [List.forall_mem_cons, ← ih]
    constructor
    · rintro ⟨bs, h⟩
      obtain ⟨b, rest, ha, hl, -⟩ := mapM_cons_eq_ok.1 h
      exact ⟨⟨b, ha⟩, rest, hl⟩
    · rintro ⟨⟨b, ha⟩, rest, hl⟩
      exact ⟨_, mapM_cons_eq_ok.2 ⟨b, rest, ha, hl, rfl⟩⟩

theorem exists_of_mem_mapM {l : List α} {bs : List β} (h : l.mapM f = .ok bs) {b : β} (hb : b ∈ bs) :
    ∃ a ∈ l, f a = .ok b := by
  induction l generalizing bs with
  | nil =>
    cases h
    cases hb
  | cons a l ih =>
    obtain ⟨c, rest, ha, hl, rfl⟩ := mapM_cons_eq_ok.1 h
    rcases List.mem_cons.1 hb with rfl | hb
    · exact ⟨a, List.mem_cons_self, ha⟩
    · obtain ⟨a', ha', e⟩ := ih hl hb
      exact ⟨a', List.mem_cons_of_mem a ha', e⟩

theorem mapM_eq_ok_iff_forall₂ {l : List α} {bs : List β} :
    l.mapM f = .ok bs ↔ List.Forall₂ (fun a b => f a = .ok b) l bs := by
  induction l generalizing bs with
  | nil =>
    rw [List.forall₂_nil_left_iff]
    simp [pure, Except.pure, eq_comm]
  | cons a l ih =>
    rw [mapM_cons_eq_ok, List.forall₂_cons_left_iff]
    simp only [ih, exists_and_left, eq_comm (a := bs)]

theorem mapM_eq_error_iff {l : List α} {e : ε} :
    l.mapM f = .error e ↔ ∃ before a after, l = before ++ a :: after ∧
      (∀ b ∈ before, ∃ c, f b = .ok c) ∧ f a = .error e := by
  induction l with
  | nil =>
    simp only [List.mapM_nil, List.nil_eq_append_iff]
    constructor
    · intro h
      cases h
    · rintro ⟨before, a, after, ⟨-, h⟩, -⟩
      cases h
  | cons a l ih =>
    rw [List.mapM_cons, bind_eq_error]
    constructor
    · rintro (h | ⟨b, ha, h⟩)
      · exact ⟨[], a, l, rfl, by simp, h⟩
      -- The head succeeds, so the failure is that of the rest.
      · rcases bind_eq_error.1 h with h | ⟨bs, -, h⟩
        · obtain ⟨before, c, after, rfl, hb, hc⟩ := ih.1 h
          exact ⟨a :: before, c, after, rfl, List.forall_mem_cons.2 ⟨⟨b, ha⟩, hb⟩, hc⟩
        · cases h
    · rintro ⟨before, c, after, e, hb, hc⟩
      cases before with
      | nil =>
        cases e
        exact .inl hc
      | cons a' before =>
        cases e
        obtain ⟨⟨b, ha⟩, hb⟩ := List.forall_mem_cons.1 hb
        exact .inr ⟨b, ha, bind_eq_error.2 (.inl (ih.2 ⟨before, c, after, rfl, hb, hc⟩))⟩

theorem mapM_eq_error_iff_flatMap {γ : Type w} {δ : Type v} {g : α → List γ} {h : γ → Except ε δ}
    (inner : ∀ a e, f a = .error e ↔ (g a).mapM h = .error e) {l : List α} {e : ε} :
    l.mapM f = .error e ↔ (l.flatMap g).mapM h = .error e := by
  induction l with
  | nil => simp [pure, Except.pure]
  | cons a l ih =>
    rw [List.mapM_cons, List.flatMap_cons, List.mapM_append]
    cases hf : f a with
    | error e' =>
      have hg := (inner a e').1 hf
      simp only [hg, error_bind, Except.error.injEq]
    | ok b =>
      cases hg : (g a).mapM h with
      | error e' =>
        rw [(inner a e').2 hg] at hf
        cases hf
      | ok ds => simp only [ok_bind, bind_pure_eq_error, ih]

theorem mapM_perm {l l' : List α} (h : l.Perm l') {bs : List β} (hb : l.mapM f = .ok bs) :
    ∃ bs', l'.mapM f = .ok bs' ∧ bs.Perm bs' := by
  induction h generalizing bs with
  | nil => exact ⟨bs, hb, .refl bs⟩
  | cons a _ ih =>
    obtain ⟨b, rest, ha, hr, rfl⟩ := mapM_cons_eq_ok.1 hb
    obtain ⟨rest', hr', hp⟩ := ih hr
    exact ⟨b :: rest', mapM_cons_eq_ok.2 ⟨b, rest', ha, hr', rfl⟩, hp.cons b⟩
  | swap a₁ a₂ l =>
    obtain ⟨b₂, _, h₂, hr, rfl⟩ := mapM_cons_eq_ok.1 hb
    obtain ⟨b₁, bs, h₁, hl, rfl⟩ := mapM_cons_eq_ok.1 hr
    refine ⟨b₁ :: b₂ :: bs, ?_, .swap b₁ b₂ bs⟩
    exact mapM_cons_eq_ok.2 ⟨b₁, _, h₁, mapM_cons_eq_ok.2 ⟨b₂, bs, h₂, hl, rfl⟩, rfl⟩
  | trans _ _ ih₁ ih₂ =>
    obtain ⟨bs₁, h₁, p₁⟩ := ih₁ hb
    obtain ⟨bs₂, h₂, p₂⟩ := ih₂ h₁
    exact ⟨bs₂, h₂, p₁.trans p₂⟩

end MapM

end NativeBuild
