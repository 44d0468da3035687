import Mathlib.Data.List.Basic
import Mathlib.Data.List.DropRight
import NativeBuild.Text.Blank

namespace NativeBuild.Text

theorem exists_mem_splitOnP_iff {p : Char → Bool} {d : Char} {cs : List Char} :
    (∃ s ∈ cs.splitOnP p, d ∈ s) ↔ d ∈ cs ∧ p d = false := by
  induction cs with
  | nil => simp
  | cons a cs ih =>
    rw [List.splitOnP_cons_eq_if_modifyHead]
    cases hs : cs.splitOnP p with
    | nil => simp at hs
    | cons first rest =>
      rw [hs, List.exists_mem_cons_iff] at ih
      by_cases ha : p a = true
      · simp [ha, ih]
        grind
      · simp [ha, ih, or_assoc]
        grind

theorem exists_mem_splitOn_iff {c d : Char} {cs : List Char} :
    (∃ s ∈ cs.splitOn c, d ∈ s) ↔ d ∈ cs ∧ d ≠ c := by
  rw [List.splitOn_eq_splitOnP, exists_mem_splitOnP_iff, beq_eq_false_iff_ne]

theorem not_mem_of_mem_splitOn {c : Char} {cs s : List Char} (h : s ∈ cs.splitOn c) : c ∉ s :=
  fun hc => (exists_mem_splitOn_iff.1 ⟨s, h, hc⟩).2 rfl

theorem splitOn_eq_iff {c : Char} {cs : List Char} {segments : List (List Char)} :
    cs.splitOn c = segments ↔
      segments ≠ [] ∧ (∀ s ∈ segments, c ∉ s) ∧ [c].intercalate segments = cs := by
  constructor
  · rintro rfl
    exact ⟨List.splitOn_ne_nil c cs, fun _ => not_mem_of_mem_splitOn, List.intercalate_splitOn c⟩
  · rintro ⟨some_segment, undivided, rfl⟩
    exact List.splitOn_intercalate c undivided some_segment

def startsBlank (cs : List Char) : Bool :=
  cs.head?.any isBlank

def endsBlank (cs : List Char) : Bool :=
  cs.getLast?.any isBlank

theorem startsBlank_append {cs : List Char} (h : cs ≠ []) (rest : List Char) :
    startsBlank (cs ++ rest) = startsBlank cs := by
  rw [startsBlank, startsBlank, List.head?_append_of_ne_nil cs h]

theorem endsBlank_append (front : List Char) {cs : List Char} (h : cs ≠ []) :
    endsBlank (front ++ cs) = endsBlank cs := by
  rw [endsBlank, endsBlank, List.getLast?_append_of_ne_nil front h]

theorem trim_eq_self {cs : List Char} (hs : startsBlank cs = false) (he : endsBlank cs = false) :
    trim cs = cs := by
  have start : cs.dropWhile isBlank = cs := by
    cases cs with
    | nil => rfl
    | cons c cs => exact List.dropWhile_cons_of_neg (by simpa [startsBlank] using hs)
  have ending : cs.rdropWhile isBlank = cs := by
    rw [List.rdropWhile_eq_self_iff]
    intro nonempty
    simpa [endsBlank, List.getLast?_eq_some_getLast nonempty] using he
  rw [trim, start]
  exact ending

theorem startsBlank_trim (cs : List Char) : startsBlank (trim cs) = false := by
  have start : trim cs <+: cs.dropWhile isBlank := List.rdropWhile_prefix isBlank _
  have first := List.head?_dropWhile_not isBlank cs
  cases h : trim cs with
  | nil => rfl
  | cons c rest =>
    rw [h] at start
    obtain ⟨after, e⟩ := start
    rw [← e] at first
    simpa [startsBlank] using first

theorem endsBlank_trim (cs : List Char) : endsBlank (trim cs) = false := by
  by_cases h : trim cs = []
  · rw [h]
    rfl
  · have last : ¬isBlank ((trim cs).getLast h) = true :=
      List.rdropWhile_last_not isBlank (cs.dropWhile isBlank) h
    rw [endsBlank, List.getLast?_eq_some_getLast h, Option.any_some]
    exact Bool.eq_false_iff.2 last

@[simp] theorem trim_trim (cs : List Char) : trim (trim cs) = trim cs :=
  trim_eq_self (startsBlank_trim cs) (endsBlank_trim cs)

end NativeBuild.Text
