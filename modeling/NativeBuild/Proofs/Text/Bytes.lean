import Mathlib.Data.List.Basic

/-! Texts as bytes. UTF-8 keeps the order of code points: of two characters the greater one has the
greater first byte, or as many bytes and the greater one where they first differ. So texts compare
as their bytes do. -/

namespace NativeBuild

def utf8 (s : String) : List UInt8 :=
  s.toUTF8.data.toList

theorem utf8_eq_flatMap (s : String) : utf8 s = s.toList.flatMap String.utf8EncodeChar := by
  rw [utf8, String.toUTF8, ← String.utf8Encode_toList, List.utf8Encode, List.data_toByteArray]

theorem ofNat_cons_lt_iff {a b : Nat} {x y : List UInt8} (ha : a < 256) (hb : b < 256) :
    UInt8.ofNat a :: x < UInt8.ofNat b :: y ↔ a < b ∨ a = b ∧ x < y := by
  rw [List.cons_lt_cons_iff, UInt8.lt_iff_toNat_lt, ← UInt8.toNat_inj,
    UInt8.toNat_ofNat_of_lt' ha, UInt8.toNat_ofNat_of_lt' hb]

theorem utf8EncodeChar_append_lt {c d : Char} (h : c < d) (x y : List UInt8) :
    String.utf8EncodeChar c ++ x < String.utf8EncodeChar d ++ y := by
  have less : c.val.toNat < d.val.toNat := h
  have bound : d.val.toNat < 0x110000 := by
    rcases d.valid with h | h
    all_goals omega
  unfold String.utf8EncodeChar
  generalize c.val.toNat = v at less
  generalize d.val.toNat = w at less bound
  -- The bytes are the digits to the base 64, the first one with a mark that tells their number.
  have second (n : Nat) : n / 4096 = n / 64 / 64 := by rw [Nat.div_div_eq_div_mul]
  have third (n : Nat) : n / 262144 = n / 64 / 64 / 64 := by
    rw [Nat.div_div_eq_div_mul, Nat.div_div_eq_div_mul]
  dsimp only
  split_ifs
  all_goals
    simp (disch := omega) only [List.cons_append, List.nil_append, ofNat_cons_lt_iff, second, third]
    omega

theorem utf8EncodeChars_lt {cs ds : List Char} (h : cs < ds) :
    cs.flatMap String.utf8EncodeChar < ds.flatMap String.utf8EncodeChar := by
  induction cs generalizing ds with
  | nil =>
    cases ds with
    | nil => cases h
    | cons d ds =>
      have some_byte := String.utf8EncodeChar_ne_nil (c := d)
      obtain ⟨b, bs, hd⟩ := List.exists_cons_of_ne_nil some_byte
      rw [List.flatMap_cons, hd]
      exact List.nil_lt_cons _ _
  | cons c cs ih =>
    cases ds with
    | nil => cases h
    | cons d ds =>
      rw [List.flatMap_cons, List.flatMap_cons]
      rcases List.cons_lt_cons_iff.1 h with first | ⟨rfl, rest⟩
      · exact utf8EncodeChar_append_lt first _ _
      · exact List.append_left_lt (ih rest)

/-- Texts compare as their bytes do. -/
theorem compare_eq_lt_iff_utf8 {s t : String} : compare s t = .lt ↔ utf8 s < utf8 t := by
  have forward {s t : String} (h : compare s t = .lt) : utf8 s < utf8 t := by
    have less : s < t := compareOfLessAndEq_eq_lt.1 h
    rw [utf8_eq_flatMap, utf8_eq_flatMap]
    exact utf8EncodeChars_lt less
  refine ⟨forward, fun h => ?_⟩
  cases hc : compare s t with
  | lt => rfl
  | eq =>
    rw [Std.LawfulEqOrd.eq_of_compare hc] at h
    exact absurd h (List.lt_irrefl _)
  | gt => exact absurd h (List.lt_asymm (forward (Std.OrientedCmp.lt_of_gt hc)))

end NativeBuild
