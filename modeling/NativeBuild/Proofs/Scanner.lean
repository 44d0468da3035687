import Mathlib.Data.List.Forall2
import NativeBuild.Scanner

namespace NativeBuild.Scanner

variable {α β : Type} {s : Scanner α} {text text' rest : List Char} {a : α} {b : β}

/-- A scanner takes a text and gives a value, when the text goes on with `rest`. -/
def Reads (s : Scanner α) (text rest : List Char) (a : α) : Prop :=
  ∀ offset, ∃ offset', s ⟨text ++ rest, offset⟩ = some (a, ⟨rest, offset'⟩)

theorem reads_pure (a : α) : (pure a : Scanner α).Reads [] rest a := fun offset => ⟨offset, rfl⟩

namespace Reads

theorem bind {f : α → Scanner β} (h : s.Reads text (text' ++ rest) a)
    (h' : (f a).Reads text' rest b) : (s >>= f).Reads (text ++ text') rest b := by
  intro offset
  obtain ⟨middle, e⟩ := h offset
  obtain ⟨last, e'⟩ := h' middle
  refine ⟨last, ?_⟩
  change (s _).bind (fun r => f r.1 r.2) = _
  rw [List.append_assoc, e]
  exact e'

theorem look {f : α → Scanner β} (h : s.Reads [] (text ++ rest) a) (h' : (f a).Reads text rest b) :
    (s >>= f).Reads text rest b :=
  show (s >>= f).Reads ([] ++ text) rest b from bind h h'

theorem done {f : α → Scanner β} (h : s.Reads text rest a) (h' : (f a).Reads [] rest b) :
    (s >>= f).Reads text rest b := by
  have both : (s >>= f).Reads (text ++ []) rest b := bind h h'
  rwa [List.append_nil] at both

theorem map (f : α → β) (h : s.Reads text rest a) :
    (do return f (← s) : Scanner β).Reads text rest (f a) :=
  h.done (reads_pure (f a))

end Reads

theorem reads_satisfy {p : Char → Bool} {c : Char} (h : p c = true) :
    (satisfy p).Reads [c] rest c :=
  fun _ => ⟨_, if_pos h⟩

theorem reads_char (c : Char) : (char c).Reads [c] rest () :=
  (reads_satisfy (p := (· == c)) (beq_self_eq_true c)).map fun _ => ()

theorem reads_token (cs : List Char) : (token cs).Reads cs rest () := by
  induction cs with
  | nil => exact reads_pure ()
  | cons c cs ih => exact (reads_char c).bind ih

theorem reads_ahead : ahead.Reads [] text text := fun offset => ⟨offset, rfl⟩

theorem reads_peek : peek.Reads [] text text.head? := fun offset => ⟨offset, rfl⟩

theorem reads_tokenIf (cs : List Char) : (tokenIf cs).Reads cs rest true := by
  refine reads_ahead.look ?_
  rw [if_pos (List.isPrefixOf_iff_prefix.2 (List.prefix_append cs rest))]
  exact (reads_token cs).map fun _ => true

theorem reads_tokenIf_ne {c d : Char} (h : c ≠ d) : (tokenIf [c]).Reads [] (d :: rest) false := by
  refine reads_ahead.look ?_
  rw [if_neg (by simpa using h)]
  exact reads_pure false

theorem reads_takeWhile {p : Char → Bool} (h : ∀ c ∈ text, p c = true)
    (stop : ∀ c ∈ rest.head?, p c = false) : (takeWhile p).Reads text rest text := by
  have stopped : rest.takeWhile p = [] ∧ rest.dropWhile p = rest := by
    cases rest with
    | nil => exact ⟨rfl, rfl⟩
    | cons c rest =>
      have no := stop c rfl
      simp [no]
  intro offset
  simp only [takeWhile, List.takeWhile_append_of_pos h, List.dropWhile_append_of_pos h, stopped,
    List.append_nil]
  exact ⟨_, rfl⟩

theorem reads_count {p : Char → Bool} (h : ∀ c ∈ text, p c = true) :
    (count p text.length).Reads text rest text := by
  induction text with
  | nil => exact reads_pure []
  | cons c text ih =>
    rw [List.forall_mem_cons] at h
    exact (reads_satisfy h.1).bind ((ih h.2).map (c :: ·))

theorem reads_repeatUpTo {step : Scanner (Option α)} {texts : List (List Char)} {values : List α}
    (reads : List.Forall₂ (fun t a => ∀ rest, step.Reads t rest (some a)) texts values)
    (stops : step.Reads text rest none) {bound : List Char} (h : texts.length < bound.length) :
    (repeatUpTo step bound).Reads (texts.flatten ++ text) rest values := by
  induction reads generalizing bound with
  | nil =>
    cases bound with
    | nil => cases h
    | cons _ bound => exact stops.done (reads_pure [])
  | cons first _ ih =>
    cases bound with
    | nil => cases h
    | cons _ bound =>
      rw [List.flatten_cons, List.append_assoc]
      exact (first _).bind ((ih (Nat.lt_of_succ_lt_succ h)).map _)

theorem length_le_flatten {texts : List (List Char)} (h : ∀ t ∈ texts, t ≠ []) :
    texts.length ≤ texts.flatten.length := by
  induction texts with
  | nil => exact Nat.le_refl 0
  | cons t texts ih =>
    rw [List.forall_mem_cons] at h
    have one := List.length_pos_iff.2 h.1
    have more := ih h.2
    rw [List.flatten_cons, List.length_append, List.length_cons]
    omega

theorem reads_repeated {step : Scanner (Option α)} {texts : List (List Char)} {values : List α}
    (some_char : ∀ t ∈ texts, t ≠ [])
    (reads : List.Forall₂ (fun t a => ∀ rest, step.Reads t rest (some a)) texts values)
    (stops : step.Reads text rest none) (left : text ++ rest ≠ []) :
    (repeated step).Reads (texts.flatten ++ text) rest values := by
  have one := List.length_pos_iff.2 left
  have more := length_le_flatten some_char
  refine reads_ahead.look (reads_repeatUpTo reads stops ?_)
  rw [List.append_assoc, List.length_append]
  omega

end NativeBuild.Scanner
