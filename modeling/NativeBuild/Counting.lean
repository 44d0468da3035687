namespace NativeBuild

theorem filter_length_mono {α : Type} {p q : α → Bool} {l : List α}
    (h : ∀ a ∈ l, p a = true → q a = true) : (l.filter p).length ≤ (l.filter q).length := by
  simpa only [List.countP_eq_length_filter] using List.countP_mono_left h

theorem filter_length_strict {α : Type} {p q : α → Bool} {l : List α}
    (h : ∀ a ∈ l, p a = true → q a = true) {c : α} (hc : c ∈ l) (hq : q c = true)
    (hp : p c = false) : (l.filter p).length < (l.filter q).length := by
  obtain ⟨before, after, rfl⟩ := List.append_of_mem hc
  have h₁ := filter_length_mono (l := before) fun a ha => h a (by simp [ha])
  have h₂ := filter_length_mono (l := after) fun a ha => h a (by simp [ha])
  simp only [List.filter_append, List.length_append, List.filter_cons, hp, hq]
  simp only [Bool.false_eq_true, if_false, if_true, List.length_cons]
  omega

end NativeBuild
