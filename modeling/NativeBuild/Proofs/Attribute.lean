import NativeBuild.Attribute
import NativeBuild.Proofs.Dict

namespace NativeBuild.AttributeSet

variable {a b c : AttributeSet}

theorem isSatisfiedBy_iff {requested candidate : AttributeSet} :
    requested.isSatisfiedBy candidate = true ↔
      ∀ name value, requested.get? name = some value → candidate.get? name = some value := by
  simp [isSatisfiedBy, Dict.get?_eq_some_iff (d := requested)]

theorem isSatisfiedBy_refl (a : AttributeSet) : a.isSatisfiedBy a = true :=
  isSatisfiedBy_iff.2 fun _ _ h => h

theorem isSatisfiedBy_trans (h : a.isSatisfiedBy b = true) (h' : b.isSatisfiedBy c = true) :
    a.isSatisfiedBy c = true :=
  isSatisfiedBy_iff.2 fun name value ha =>
    isSatisfiedBy_iff.1 h' name value (isSatisfiedBy_iff.1 h name value ha)

theorem isSatisfiedBy_antisymm (h : a.isSatisfiedBy b = true) (h' : b.isSatisfiedBy a = true) :
    a = b := by
  apply Dict.ext_get?
  intro name
  apply Option.ext
  intro value
  exact ⟨isSatisfiedBy_iff.1 h name value, isSatisfiedBy_iff.1 h' name value⟩

theorem isSatisfiedBy_merge_iff {base upper candidate : AttributeSet} :
    isSatisfiedBy (base.merge upper) candidate = true ↔ upper.isSatisfiedBy candidate = true ∧
      ∀ name value, base.get? name = some value → upper.get? name = none →
        candidate.get? name = some value := by
  simp only [isSatisfiedBy_iff, Dict.get?_merge]
  constructor
  · intro h
    refine ⟨fun name value hu => h name value ?_, fun name value hb hu => h name value ?_⟩
    · rw [hu, Option.some_or]
    · rw [hu, Option.none_or, hb]
  · rintro ⟨hu, hb⟩ name value hm
    cases he : upper.get? name with
    | none =>
      rw [he, Option.none_or] at hm
      exact hb name value hm he
    | some value' =>
      rw [he, Option.some_or] at hm
      exact hu name value (he.trans hm)

def Agrees (view base : AttributeSet) : Prop :=
  ∀ name value value', view.get? name = some value → base.get? name = some value' → value = value'

theorem isSatisfiedBy_merge {base view : AttributeSet} (h : view.Agrees base)
    (candidate : AttributeSet) : isSatisfiedBy (base.merge view) candidate =
      (base.isSatisfiedBy candidate && view.isSatisfiedBy candidate) := by
  rw [Bool.eq_iff_iff, Bool.and_eq_true, isSatisfiedBy_merge_iff]
  constructor
  · rintro ⟨hv, rest⟩
    refine ⟨isSatisfiedBy_iff.2 fun name value hb => ?_, hv⟩
    cases he : view.get? name with
    | none => exact rest name value hb he
    | some value' =>
      rw [← h name value' value he hb]
      exact isSatisfiedBy_iff.1 hv name value' he
  · rintro ⟨hb, hv⟩
    exact ⟨hv, fun name value h _ => isSatisfiedBy_iff.1 hb name value h⟩

theorem isSatisfiedBy_merge_right (a b : AttributeSet) : b.isSatisfiedBy (a.merge b) = true :=
  (isSatisfiedBy_merge_iff.1 (isSatisfiedBy_refl (a.merge b))).1

theorem isSatisfiedBy_merge_left_iff : a.isSatisfiedBy (a.merge b) = true ↔ a.Agrees b := by
  simp only [isSatisfiedBy_iff, Dict.get?_merge]
  constructor
  · intro h name value value' ha hb
    have both := h name value ha
    rw [hb, Option.some_or] at both
    exact (Option.some.inj both).symm
  · intro h name value ha
    cases hb : b.get? name with
    | none => rw [Option.none_or, ha]
    | some value' => rw [Option.some_or, h name value value' ha hb]

/-- Layering attributes is associative, and the empty set makes no difference on either side.
Satisfaction orders the sets, so two that satisfy each other are one, however they were built.
Layered attributes ask for all that the upper layer asks for, and for the entries of the lower one
under other names; so they satisfy the upper layer always, and the lower one if the two agree. -/
theorem satisfaction_layered (a b c : AttributeSet) :
    ((a.merge b).merge c = a.merge (b.merge c) ∧ Dict.empty.merge a = a ∧ a.merge Dict.empty = a) ∧
    (a.isSatisfiedBy a = true ∧
      (a.isSatisfiedBy b = true → b.isSatisfiedBy c = true → a.isSatisfiedBy c = true) ∧
      (a.isSatisfiedBy b = true → b.isSatisfiedBy a = true → a = b)) ∧
    (isSatisfiedBy (a.merge b) c = true ↔ b.isSatisfiedBy c = true ∧
      ∀ name value, a.get? name = some value → b.get? name = none → c.get? name = some value) ∧
    b.isSatisfiedBy (a.merge b) = true ∧
    (a.isSatisfiedBy (a.merge b) = true ↔
      ∀ name value value', a.get? name = some value → b.get? name = some value' → value = value') :=
  ⟨⟨Dict.merge_assoc a b c, Dict.empty_merge a, Dict.merge_empty a⟩,
    ⟨isSatisfiedBy_refl a, isSatisfiedBy_trans, isSatisfiedBy_antisymm⟩,
    isSatisfiedBy_merge_iff, isSatisfiedBy_merge_right a b, isSatisfiedBy_merge_left_iff⟩

theorem satisfaction_layered_rebuilt :
    let a := declare (declare .empty .debuggable true) .usage .nativeLink
    let b := declare (declare (declare .empty .usage .swiftInterface) .debuggable true) .usage
      .nativeLink
    let c := declare b .optimized false
    (a.isSatisfiedBy b = true ∧ b.isSatisfiedBy a = true ∧ a = b) ∧
      b.isSatisfiedBy c = true ∧ a.isSatisfiedBy c = true := by
  intro a b c
  have hab : a.isSatisfiedBy b = true := by decide
  have hba : b.isSatisfiedBy a = true := by decide
  have hbc : b.isSatisfiedBy c = true := by decide
  obtain ⟨-, ⟨-, trans, antisymm⟩, -⟩ := satisfaction_layered a b c
  exact ⟨⟨hab, hba, antisymm hab hba⟩, hbc, trans hab hbc⟩

end NativeBuild.AttributeSet
