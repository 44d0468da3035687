import Mathlib
import NativeBuild.Text.Alphanumeric
import NativeBuild.Text.Uppercase

/-! How the table of letters and the tables of capitals fit together. A capital of a letter starts with
a letter that is its own capital. What follows in capitals of several characters are letters too, but
for 26 letters whose capital is written with combining marks.

The tables are compared as sets of code points, and a set as the number that has its elements as
bits, so that a few steps with large numbers do for all of Unicode. -/

namespace NativeBuild.Text

section Sets

variable {ranges others : List (Nat × Nat)} {n : Nat}

def Among (ranges : List (Nat × Nat)) (n : Nat) : Prop :=
  ∃ r ∈ ranges, r.1 ≤ n ∧ n ≤ r.2

/-- The number with a bit for each code point in the ranges. -/
def bits : List (Nat × Nat) → Nat
  | [] => 0
  | r :: rest => (1 <<< (r.2 + 1 - r.1) - 1) <<< r.1 ||| bits rest

theorem among_cons {r : Nat × Nat} :
    Among (r :: ranges) n ↔ (r.1 ≤ n ∧ n ≤ r.2) ∨ Among ranges n := by
  simp [Among]

theorem among_of_mem (h : (n, n) ∈ ranges) : Among ranges n :=
  ⟨_, h, Nat.le_refl n, Nat.le_refl n⟩

theorem testBit_bits (ranges : List (Nat × Nat)) (n : Nat) :
    (bits ranges).testBit n = true ↔ Among ranges n := by
  induction ranges with
  | nil => simp [bits, Among]
  | cons r rest ih =>
    rw [bits, Nat.testBit_or, Bool.or_eq_true, ih, among_cons, Nat.testBit_shiftLeft,
      Nat.one_shiftLeft, Nat.testBit_two_pow_sub_one]
    simp only [ge_iff_le, Bool.and_eq_true, decide_eq_true_eq]
    have range : r.1 ≤ n ∧ n - r.1 < r.2 + 1 - r.1 ↔ r.1 ≤ n ∧ n ≤ r.2 := by omega
    rw [range]

theorem among_of_bits (h : bits ranges &&& bits others = bits ranges) (hn : Among ranges n) :
    Among others n := by
  rw [← testBit_bits] at hn ⊢
  rw [← h, Nat.testBit_and, Bool.and_eq_true] at hn
  exact hn.2

theorem not_among_of_bits (h : bits ranges &&& bits others = 0) (hn : Among ranges n) :
    ¬Among others n := by
  intro ho
  rw [← testBit_bits] at hn ho
  have both := Nat.testBit_and (bits ranges) (bits others) n
  rw [h, hn, ho, Nat.zero_testBit] at both
  cases both

theorem inRanges_iff (ascending : ranges.Pairwise (·.1 ≤ ·.1)) :
    inRanges ranges n = true ↔ Among ranges n := by
  induction ranges with
  | nil => simp [inRanges, Among]
  | cons r rest ih =>
    obtain ⟨first, ascending⟩ := List.pairwise_cons.1 ascending
    rw [inRanges, among_cons, Bool.and_eq_true, Bool.or_eq_true, ih ascending, decide_eq_true_iff,
      decide_eq_true_iff]
    have reached (h : Among rest n) : r.1 ≤ n := by
      obtain ⟨s, hs, le, -⟩ := h
      exact (first s hs).trans le
    constructor
    · rintro ⟨le, h | h⟩
      · exact .inl ⟨le, h⟩
      · exact .inr h
    · rintro (⟨le, h⟩ | h)
      · exact ⟨le, .inl h⟩
      · exact ⟨reached h, .inr h⟩

end Sets

def letters : List (Nat × Nat) :=
  (48, 57) :: (65, 90) :: (97, 122) :: alphanumericRanges

theorem ascending_alphanumericRanges : alphanumericRanges.Pairwise (·.1 ≤ ·.1) := by
  have trans : IsTrans (Nat × Nat) (·.1 ≤ ·.1) := ⟨fun _ _ _ => Nat.le_trans⟩
  exact List.isChain_iff_pairwise.1 (by decide +kernel)

theorem isAlphanumeric_iff {c : Char} : isAlphanumeric c = true ↔ Among letters c.toNat := by
  have ascii : c.isAlphanum = true ↔ (48 ≤ c.toNat ∧ c.toNat ≤ 57) ∨
      (65 ≤ c.toNat ∧ c.toNat ≤ 90) ∨ (97 ≤ c.toNat ∧ c.toNat ≤ 122) := by
    simp only [Char.isAlphanum, Char.isAlpha, Char.isUpper, Char.isLower, Char.isDigit,
      Bool.or_eq_true, Bool.and_eq_true, decide_eq_true_eq, UInt32.le_iff_toNat_le, ge_iff_le]
    change ((65 ≤ c.toNat ∧ c.toNat ≤ 90) ∨ (97 ≤ c.toNat ∧ c.toNat ≤ 122)) ∨
      (48 ≤ c.toNat ∧ c.toNat ≤ 57) ↔ _
    omega
  rw [isAlphanumeric, Bool.or_eq_true, ascii, inRanges_iff ascending_alphanumericRanges, letters,
    among_cons, among_cons, among_cons, or_assoc, or_assoc]

theorem toNat_ofNat_of_among {n : Nat} (h : Among letters n) : (Char.ofNat n).toNat = n := by
  have valid : Among [(0, 0xd7ff), (0xe000, 0x10ffff)] n := among_of_bits (by decide +kernel) h
  have scalar : n.isValidChar := by
    simp only [Among, List.mem_cons, List.not_mem_nil, or_false] at valid
    rcases valid with ⟨r, rfl | rfl, valid⟩
    · exact .inl (by omega)
    · exact .inr (by omega)
  rw [Char.toNat_ofNat, if_pos scalar]

def CaseRun.ranges (r : CaseRun) : List (Nat × Nat) :=
  if r.step = 1 then [(r.first, r.last)]
  else (List.range ((r.last - r.first) / r.step + 1)).map fun i =>
    (r.first + i * r.step, r.first + i * r.step)

theorem CaseRun.among_ranges {r : CaseRun} {n : Nat} (h : r.covers n = true) :
    Among r.ranges n := by
  simp only [covers, Bool.and_eq_true, decide_eq_true_eq, beq_iff_eq] at h
  obtain ⟨⟨first, last⟩, step⟩ := h
  unfold ranges
  split
  · exact ⟨_, List.mem_singleton_self _, first, last⟩
  · have place : r.first + (n - r.first) / r.step * r.step = n := by
      have whole := Nat.div_add_mod' (n - r.first) r.step
      omega
    refine among_of_mem (List.mem_map.2 ⟨(n - r.first) / r.step, ?_, by rw [place]⟩)
    rw [List.mem_range]
    exact Nat.lt_succ_of_le (Nat.div_le_div_right (by omega))

def cased : List (Nat × Nat) :=
  (97, 122) :: (longCapitals.map fun p => (p.1, p.1)) ++ caseRuns.flatMap CaseRun.ranges

def shifted (shift : Int) (r : Nat × Nat) : Nat × Nat :=
  ((r.1 + shift).toNat, (r.2 + shift).toNat)

def capitals : List (Nat × Nat) :=
  (65, 90) :: (longCapitals.map fun p => (p.2.headD 0, p.2.headD 0)) ++
    caseRuns.flatMap fun r => r.ranges.map (shifted r.shift)

theorem toNat_toUpper {c : Char} (h : c.toNat < 128) :
    c.toUpper.toNat = if 97 ≤ c.toNat ∧ c.toNat ≤ 122 then c.toNat - 32 else c.toNat := by
  -- Below 128 nothing is looked up, and the characters are checked one by one.
  have all : ∀ n < 128, (Char.ofNat n).toUpper.toNat = if 97 ≤ n ∧ n ≤ 122 then n - 32 else n := by
    decide
  simpa using all c.toNat h

theorem mem_of_lookup {points : List Nat} {n : Nat} (h : longCapitals.lookup n = some points) :
    (n, points) ∈ longCapitals := by
  obtain ⟨before, after, e, -⟩ := List.lookup_eq_some_iff.1 h
  rw [e]
  exact List.mem_append_right _ List.mem_cons_self

theorem upper_cases (c : Char) : upper c = [c] ∨ Among cased c.toNat ∧
    ((∃ n, Among capitals n ∧ upper c = [Char.ofNat n]) ∨
      ∃ points, (c.toNat, points) ∈ longCapitals ∧ upper c = points.map Char.ofNat) := by
  unfold upper
  split
  · rename_i ascii
    have upper := toNat_toUpper ascii
    split at upper
    · rename_i lower
      refine .inr ⟨⟨_, List.mem_cons_self, lower⟩, .inl ⟨c.toUpper.toNat, ?_, by simp⟩⟩
      exact ⟨(65, 90), List.mem_cons_self, by omega⟩
    · rw [Char.toNat_inj.1 upper]
      exact .inl rfl
  · split
    · rename_i points h
      have listed := mem_of_lookup h
      refine .inr ⟨among_of_mem (List.mem_append_left _ ?_), .inr ⟨points, listed, rfl⟩⟩
      exact List.mem_cons_of_mem _ (List.mem_map.2 ⟨_, listed, rfl⟩)
    · split
      · rename_i run h
        have listed := List.mem_of_find?_eq_some h
        have covers : run.covers c.toNat = true := by simpa using List.find?_some h
        obtain ⟨r, hr, first, last⟩ := CaseRun.among_ranges covers
        refine .inr ⟨⟨r, List.mem_append_right _ ?_, first, last⟩,
          .inl ⟨_, ⟨shifted run.shift r, List.mem_append_right _ ?_, ?_⟩, rfl⟩⟩
        · exact List.mem_flatMap.2 ⟨run, listed, hr⟩
        · exact List.mem_flatMap.2 ⟨run, listed, List.mem_map_of_mem hr⟩
        · simp only [shifted]
          omega
      · exact .inl rfl

theorem upper_capital {n : Nat} (h : Among capitals n) :
    isAlphanumeric (Char.ofNat n) = true ∧ upper (Char.ofNat n) = [Char.ofNat n] := by
  have letter : Among letters n := among_of_bits (by decide +kernel) h
  have point := toNat_ofNat_of_among letter
  -- No capital is listed as having one of its own.
  have apart : ¬Among cased n := not_among_of_bits (by decide +kernel) h
  refine ⟨isAlphanumeric_iff.2 (point.symm ▸ letter), (upper_cases _).resolve_right ?_⟩
  rw [point]
  exact fun listed => apart listed.1

theorem exists_upper_eq_cons {c : Char} (h : isAlphanumeric c = true) : ∃ first rest,
    upper c = first :: rest ∧ isAlphanumeric first = true ∧ upper first = [first] := by
  rcases upper_cases c with self | ⟨-, ⟨n, hn, one⟩ | ⟨points, hp, long⟩⟩
  · exact ⟨c, [], self, h, self⟩
  · exact ⟨_, [], one, upper_capital hn⟩
  · cases points with
    | nil =>
      have filled : ∀ p ∈ longCapitals, p.2 ≠ [] := by decide +kernel
      exact absurd rfl (filled _ hp)
    | cons n points =>
      refine ⟨_, _, long, upper_capital (among_of_mem (List.mem_append_left _ ?_))⟩
      exact List.mem_cons_of_mem _ (List.mem_map.2 ⟨_, hp, rfl⟩)

/-- The letters whose capital is written with a combining mark that is no letter. -/
def markedLetters : List Nat :=
  [496, 912, 944, 7830, 7831, 7832, 7833, 8016, 8018, 8020, 8022, 8118, 8119, 8134, 8135, 8146, 8147,
    8150, 8151, 8162, 8163, 8164, 8166, 8167, 8182, 8183]

def plainPoints : List (Nat × Nat) :=
  (longCapitals.filter (!markedLetters.contains ·.1)).flatMap fun p => p.2.map fun n => (n, n)

theorem isAlphanumeric_of_mem_upper {c : Char} (h : isAlphanumeric c = true)
    (plain : c.toNat ∉ markedLetters) {d : Char} (hd : d ∈ upper c) : isAlphanumeric d = true := by
  rcases upper_cases c with self | ⟨-, ⟨n, hn, one⟩ | ⟨points, hp, long⟩⟩
  · rw [self, List.mem_singleton] at hd
    rwa [hd]
  · rw [one, List.mem_singleton] at hd
    rw [hd]
    exact (upper_capital hn).1
  · rw [long] at hd
    obtain ⟨n, hn, rfl⟩ := List.mem_map.1 hd
    have listed : Among plainPoints n := by
      refine among_of_mem (List.mem_flatMap.2 ⟨_, List.mem_filter.2 ⟨hp, ?_⟩, ?_⟩)
      · simpa using plain
      · exact List.mem_map_of_mem hn
    have letter : Among letters n := among_of_bits (by decide +kernel) listed
    exact isAlphanumeric_iff.2 ((toNat_ofNat_of_among letter).symm ▸ letter)

theorem exists_mark_mem_upper {c : Char} (marked : c.toNat ∈ markedLetters) :
    ∃ d ∈ upper c, isAlphanumeric d = false ∧ d ≠ '_' := by
  -- No mark from U+0300 to U+0344 is a letter; the next one, U+0345, is.
  have marks : ∀ n ∈ markedLetters,
      (upper (Char.ofNat n)).any (fun d => 768 ≤ d.toNat && d.toNat ≤ 836) = true := by decide +kernel
  have mark := marks c.toNat marked
  rw [Char.ofNat_toNat, List.any_eq_true] at mark
  obtain ⟨d, hd, mark⟩ := mark
  simp only [Bool.and_eq_true, decide_eq_true_eq] at mark
  refine ⟨d, hd, Bool.eq_false_iff.2 fun letter => ?_, ?_⟩
  · have among : Among [(768, 836)] d.toNat := ⟨_, List.mem_singleton_self _, mark⟩
    exact not_among_of_bits (by decide +kernel) among (isAlphanumeric_iff.1 letter)
  · rintro rfl
    simp at mark

end NativeBuild.Text
