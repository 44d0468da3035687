import NativeBuild.Naming
import NativeBuild.Proofs.Text.Casing
import NativeBuild.Proofs.Text.Segments

namespace NativeBuild

open Text

variable {cs : List Char}

theorem ne_nil_of_mem_words {w : List Char} (h : w ∈ words cs) : w ≠ [] := by
  simpa using (List.mem_filter.1 h).2

theorem isAlphanumeric_of_mem_words {w : List Char} (h : w ∈ words cs) {c : Char} (hc : c ∈ w) :
    isAlphanumeric c = true := by
  have among := exists_mem_splitOnP_iff.1 ⟨w, List.mem_of_mem_filter h, hc⟩
  simpa using among.2

theorem words_ne_nil (h : ∃ c ∈ cs, isAlphanumeric c = true) : words cs ≠ [] := by
  obtain ⟨c, hc, letter⟩ := h
  obtain ⟨w, hw, hc⟩ :=
    (exists_mem_splitOnP_iff (p := fun c => !isAlphanumeric c)).2 ⟨hc, by simp [letter]⟩
  refine List.ne_nil_of_mem (List.mem_filter.2 ⟨hw, ?_⟩)
  simpa using List.ne_nil_of_mem hc

theorem words_append {c : Char} (h : isAlphanumeric c = false) (front rest : List Char) :
    words (front ++ c :: rest) = words front ++ words rest := by
  rw [words, List.splitOnP_append_cons front rest (by simp [h]), List.filter_append]
  rfl

theorem words_of_letters (nonempty : cs ≠ []) (letters : ∀ c ∈ cs, isAlphanumeric c = true) :
    words cs = [cs] := by
  have undivided : ∀ c ∈ cs, (!isAlphanumeric c) = false := by simpa using letters
  rw [words, List.splitOnP_eq_singleton undivided]
  simp [nonempty]

def camelCase (cs : List Char) : List Char :=
  (words cs).flatMap capitalizeChars

def guardDigit : List Char → List Char
  | [] => []
  | c :: rest => if c.isDigit then '_' :: c :: rest else c :: rest

theorem moduleNameChars_eq (cs : List Char) : moduleNameChars cs = guardDigit (camelCase cs) := by
  rw [moduleNameChars, camelCase]
  cases (words cs).flatMap capitalizeChars <;> rfl

theorem exists_camelCase_eq_cons (h : words cs ≠ []) : ∃ first rest,
    camelCase cs = first :: rest ∧ isAlphanumeric first = true ∧ upper first = [first] := by
  obtain ⟨w, ws, hw⟩ := List.exists_cons_of_ne_nil h
  have listed : w ∈ words cs := by simp [hw]
  obtain ⟨c, w', rfl⟩ := List.exists_cons_of_ne_nil (ne_nil_of_mem_words listed)
  have letter := isAlphanumeric_of_mem_words listed List.mem_cons_self
  obtain ⟨first, more, capital, first_letter, own⟩ := exists_upper_eq_cons letter
  refine ⟨first, more ++ w' ++ ws.flatMap capitalizeChars, ?_, first_letter, own⟩
  simp [camelCase, hw, capitalizeChars, capital]

theorem camelCase_cases (cs : List Char) : camelCase cs = [] ∨ ∃ first rest,
    camelCase cs = first :: rest ∧ isAlphanumeric first = true ∧ upper first = [first] := by
  by_cases none : words cs = []
  · exact .inl (by simp [camelCase, none])
  · exact .inr (exists_camelCase_eq_cons none)

theorem words_guardDigit (cs : List Char) : words (guardDigit cs) = words cs := by
  cases cs with
  | nil => rfl
  | cons c rest =>
    rw [guardDigit]
    split
    · exact words_append rfl [] (c :: rest)
    · rfl

theorem camelCase_guardDigit (cs : List Char) : camelCase (guardDigit cs) = camelCase cs := by
  rw [camelCase, camelCase, words_guardDigit]

theorem camelCase_camelCase (h : ∀ c ∈ camelCase cs, isAlphanumeric c = true) :
    camelCase (camelCase cs) = camelCase cs := by
  rcases camelCase_cases cs with e | ⟨first, rest, e, -, own⟩
  · rw [e]
    rfl
  · rw [e] at h ⊢
    rw [camelCase, words_of_letters (List.cons_ne_nil first rest) h]
    simp [capitalizeChars, own]

theorem isAlphanumeric_of_camelCase_eq (h : camelCase (camelCase cs) = camelCase cs) :
    ∀ c ∈ camelCase cs, isAlphanumeric c = true := by
  by_contra other
  obtain ⟨m, found⟩ : ∃ m, (camelCase cs).find? (!isAlphanumeric ·) = some m := by
    rw [← Option.isSome_iff_exists, List.find?_isSome]
    simpa using other
  obtain ⟨mark, front, rest, e, letters⟩ := List.find?_eq_some_iff_append.1 found
  replace mark : isAlphanumeric m = false := by simpa using mark
  replace letters : ∀ c ∈ front, isAlphanumeric c = true := by simpa using letters
  obtain ⟨first, front, rfl, own⟩ : ∃ c front', front = c :: front' ∧ upper c = [c] := by
    rcases camelCase_cases cs with none | ⟨first, more, e', letter, own⟩
    · simp [none] at e
    · cases front with
      | nil =>
        obtain rfl : first = m := by simpa [e'] using congrArg List.head? e
        simp [letter] at mark
      | cons c front =>
        obtain rfl : first = c := by simpa [e'] using congrArg List.head? e
        exact ⟨first, front, rfl, own⟩
  have again : camelCase (camelCase cs) = first :: front ++ camelCase rest := by
    rw [e, camelCase, words_append mark, words_of_letters (List.cons_ne_nil first front) letters]
    simp [capitalizeChars, own, camelCase]
  rw [h, e] at again
  -- `m` would be the first letter of the words after it, and it is no letter.
  have tail : m :: rest = camelCase rest := List.append_cancel_left again
  rcases camelCase_cases rest with none | ⟨c, more, e', letter, -⟩
  · simp [none] at tail
  · obtain rfl : m = c := (List.cons.inj (tail.trans e')).1
    simp [letter] at mark

/-- No word starts with a letter whose capital carries a combining mark. -/
def StartsPlain (cs : List Char) : Prop :=
  ∀ w ∈ words cs, ∀ c ∈ w.head?, c.toNat ∉ markedLetters

theorem isAlphanumeric_of_startsPlain (plain : StartsPlain cs) :
    ∀ d ∈ camelCase cs, isAlphanumeric d = true := by
  intro d hd
  obtain ⟨w, hw, hd⟩ := List.mem_flatMap.1 hd
  obtain ⟨c, rest, rfl⟩ := List.exists_cons_of_ne_nil (ne_nil_of_mem_words hw)
  rcases List.mem_append.1 hd with hd | hd
  · have letter := isAlphanumeric_of_mem_words hw List.mem_cons_self
    exact isAlphanumeric_of_mem_upper letter (plain _ hw c rfl) hd
  · exact isAlphanumeric_of_mem_words hw (List.mem_cons_of_mem c hd)

theorem startsPlain_of_camelCase (h : ∀ d ∈ camelCase cs, isModuleNameChar d = true) :
    StartsPlain cs := by
  intro w hw c hc marked
  obtain ⟨rest, rfl⟩ := List.head?_eq_some_iff.1 hc
  obtain ⟨d, hd, mark, underscore⟩ := exists_mark_mem_upper marked
  have proper := h d (List.mem_flatMap.2 ⟨_, hw, List.mem_append_left rest hd⟩)
  simp [isModuleNameChar, mark, underscore] at proper

theorem isModuleNameChar_guardDigit_iff : (∀ d ∈ guardDigit cs, isModuleNameChar d = true) ↔
    ∀ d ∈ cs, isModuleNameChar d = true := by
  cases cs with
  | nil => rfl
  | cons c rest =>
    rw [guardDigit]
    split
    · simp [isModuleNameChar]
    · rfl

theorem dropWhile_guardDigit (cs : List Char) :
    (guardDigit (camelCase cs)).dropWhile (· == '_') = camelCase cs := by
  rcases camelCase_cases cs with e | ⟨first, rest, e, letter, -⟩
  · rw [e]
    rfl
  · have other : first ≠ '_' := by
      rintro rfl
      exact absurd letter (Bool.eq_false_iff.1 rfl)
    rw [e, guardDigit]
    split <;> simp [other]

theorem guardDigit_camelCase_inj {cs' : List Char} :
    guardDigit (camelCase cs) = guardDigit (camelCase cs') ↔ camelCase cs = camelCase cs' := by
  refine ⟨fun h => ?_, congrArg guardDigit⟩
  rw [← dropWhile_guardDigit cs, h, dropWhile_guardDigit]

theorem toList_moduleName (name : String) :
    (moduleName name).toList = guardDigit (camelCase name.toList) := by
  rw [moduleName, String.toList_ofList, moduleNameChars_eq]

theorem moduleName_ne_empty {name : String} (h : ∃ c ∈ name.toList, isAlphanumeric c = true) :
    moduleName name ≠ "" := by
  obtain ⟨first, rest, e, -⟩ := exists_camelCase_eq_cons (words_ne_nil h)
  intro empty
  have text := toList_moduleName name
  rw [empty, e, guardDigit] at text
  split at text <;> simp at text

theorem isModuleName_moduleName_iff {name : String}
    (h : ∃ c ∈ name.toList, isAlphanumeric c = true) :
    isModuleName (moduleName name) = true ↔ StartsPlain name.toList := by
  have filled : (moduleName name).toList ≠ [] := by simpa using moduleName_ne_empty h
  have proper : isModuleName (moduleName name) = true ↔
      ∀ d ∈ camelCase name.toList, isModuleNameChar d = true := by
    rw [← isModuleNameChar_guardDigit_iff, ← toList_moduleName]
    simp [isModuleName, filled]
  rw [proper]
  refine ⟨startsPlain_of_camelCase, fun plain d hd => ?_⟩
  simp [isModuleNameChar, isAlphanumeric_of_startsPlain plain d hd]

theorem moduleName_moduleName_iff (name : String) :
    moduleName (moduleName name) = moduleName name ↔ StartsPlain name.toList := by
  have fixed : moduleName (moduleName name) = moduleName name ↔
      camelCase (camelCase name.toList) = camelCase name.toList := by
    rw [← String.toList_inj, toList_moduleName, toList_moduleName, camelCase_guardDigit,
      guardDigit_camelCase_inj]
  rw [fixed]
  constructor
  · intro h
    refine startsPlain_of_camelCase fun d hd => ?_
    simp [isModuleNameChar, isAlphanumeric_of_camelCase_eq h d hd]
  · intro plain
    exact camelCase_camelCase (isAlphanumeric_of_startsPlain plain)

/-- A project name with a letter or digit gives a module name that is not empty. It is proper by the
rule for given names, and made of itself, exactly if no word of the project name starts with a
letter whose capital carries a combining mark. -/
theorem derived_moduleName (name : String) (lettered : ∃ c ∈ name.toList, isAlphanumeric c = true) :
    moduleName name ≠ "" ∧
    (isModuleName (moduleName name) = true ↔ StartsPlain name.toList) ∧
    (moduleName (moduleName name) = moduleName name ↔ StartsPlain name.toList) :=
  ⟨moduleName_ne_empty lettered, isModuleName_moduleName_iff lettered, moduleName_moduleName_iff name⟩

theorem derived_moduleName_long :
    moduleName "3d-\u00dfa\u01f0" = "_3dSSa\u01f0" ∧ isModuleName "_3dSSa\u01f0" = true ∧
      moduleName "_3dSSa\u01f0" = "_3dSSa\u01f0" := by
  have name : moduleName "3d-\u00dfa\u01f0" = "_3dSSa\u01f0" := by decide +kernel
  have parts : words "3d-\u00dfa\u01f0".toList = ["3d".toList, "\u00dfa\u01f0".toList] := by
    decide +kernel
  have plain : StartsPlain "3d-\u00dfa\u01f0".toList := by
    rw [StartsPlain, parts]
    simp [markedLetters]
  have derived := derived_moduleName "3d-\u00dfa\u01f0" ⟨'3', by decide, by decide +kernel⟩
  rw [name] at derived
  exact ⟨name, derived.2.1.2 plain, derived.2.2.2 plain⟩

/-- The capital of `ǰ` is a J with a caron, which is no letter. -/
theorem derived_moduleName_caron :
    moduleName "\u01f0" = "J\u030c" ∧ isModuleName "J\u030c" = false ∧ moduleName "J\u030c" = "J" := by
  decide +kernel

end NativeBuild
