import Mathlib.Data.List.Basic
import Mathlib.Data.List.Induction
import NativeBuild.ModuleMap

/-! The text of a module map stands for one map only. Names and paths may hold any characters, line
breaks and braces too, so the text is read from its end. What comes before the last line break tells
whether one more header is there. The path of a header begins after the last quote that follows a
space: a quote that belongs to the path follows a backslash. -/

namespace NativeBuild.ModuleMap

def unescape : List Char → List Char
  | [] => []
  | '\\' :: c :: cs => c :: unescape cs
  | c :: cs => c :: unescape cs

theorem escape_cases (c : Char) :
    (escape c = ['\\', c] ∧ (c = '\\' ∨ c = '\x22')) ∨ (escape c = [c] ∧ c ≠ '\\' ∧ c ≠ '\x22') := by
  unfold escape
  split <;> simp_all

@[simp] theorem unescape_escape (cs : List Char) : unescape (cs.flatMap escape) = cs := by
  induction cs with
  | nil => rfl
  | cons c cs ih =>
    rw [List.flatMap_cons]
    rcases escape_cases c with ⟨e, -⟩ | ⟨e, slash, -⟩
    · rw [e]
      exact congrArg (c :: ·) ih
    · rw [e, List.singleton_append, unescape, ih]
      intro _ _ h
      exact absurd h slash

theorem escape_injective : Function.Injective fun cs : List Char => cs.flatMap escape := by
  intro cs cs' h
  simpa using congrArg unescape h

theorem head?_escape_ne (cs : List Char) : (cs.flatMap escape).head? ≠ some '\x22' := by
  cases cs with
  | nil => simp
  | cons c cs =>
    rcases escape_cases c with ⟨e, -⟩ | ⟨e, -, quote⟩
    · simp [e]
    · simpa [e] using quote

theorem not_infix_escape (cs : List Char) : ¬[' ', '\x22'] <:+: cs.flatMap escape := by
  induction cs with
  | nil => simp
  | cons c cs ih =>
    have first : ¬[' ', '\x22'] <+: c :: cs.flatMap escape := by
      intro h
      obtain ⟨-, rest⟩ := List.cons_prefix_cons.1 h
      exact head?_escape_ne cs (List.singleton_prefix_iff_head?_eq_some.1 rest)
    have plain : ¬[' ', '\x22'] <:+: c :: cs.flatMap escape := by
      rw [List.infix_cons_iff]
      exact not_or_intro first ih
    rcases escape_cases c with ⟨e, -⟩ | ⟨e, -⟩
    · rw [List.flatMap_cons, e, List.cons_append, List.singleton_append, List.infix_cons_iff]
      refine not_or_intro ?_ plain
      simp
    · rwa [List.flatMap_cons, e]

theorem eq_nil_of_quoted {front path path' : List Char} (h : ¬[' ', '\x22'] <:+: path)
    (e : [' ', '\x22'] ++ path = front ++ ([' ', '\x22'] ++ path')) : front = [] := by
  match front with
  | [] => rfl
  | [c] => simp at e
  | c :: d :: front =>
    obtain ⟨-, -, e⟩ : ' ' = c ∧ '\x22' = d ∧ path = front ++ ([' ', '\x22'] ++ path') := by simpa using e
    exact absurd ⟨front, path', by rw [e, List.append_assoc]⟩ h

theorem append_quoted_inj {before before' path path' : List Char} (h : ¬[' ', '\x22'] <:+: path)
    (h' : ¬[' ', '\x22'] <:+: path')
    (e : before ++ ([' ', '\x22'] ++ path) = before' ++ ([' ', '\x22'] ++ path')) :
    before = before' ∧ path = path' := by
  rcases List.append_eq_append_iff.1 e with ⟨front, rfl, rest⟩ | ⟨front, rfl, rest⟩
  · obtain rfl := eq_nil_of_quoted h rest
    simpa using rest
  · obtain rfl := eq_nil_of_quoted h' rest
    simpa using rest.symm

def keyword (isDirectory : Bool) : List Char :=
  if isDirectory then "    umbrella".toList else "    header".toList

theorem toList_headerLine (isDirectory : Bool) (header : String) :
    (headerLine isDirectory header).toList =
      keyword isDirectory ++ ([' ', '\x22'] ++ header.toList.flatMap escape) ++ ['\x22', '\n'] := by
  cases isDirectory <;> simp [headerLine, keyword]

theorem append_keyword_inj {before before' : List Char} {d d' : Bool}
    (h : before ++ keyword d = before' ++ keyword d') : before = before' ∧ d = d' := by
  have last := congrArg List.getLast? h
  cases d <;> cases d'
  · exact ⟨List.append_cancel_right h, rfl⟩
  · simp [keyword] at last
  · simp [keyword] at last
  · exact ⟨List.append_cancel_right h, rfl⟩

/-- The text of a map down to the end of its headers; of each one it is told whether it is a
directory. -/
def opening (name : String) (headers : List (Bool × String)) : List Char :=
  name.toList ++ [' ', '\x7b', '\n'] ++ headers.flatMap fun h => (headerLine h.1 h.2).toList

@[simp] theorem opening_nil (name : String) : opening name [] = name.toList ++ [' ', '\x7b', '\n'] := by
  simp [opening]

theorem opening_concat (name : String) (headers : List (Bool × String)) (h : Bool × String) :
    opening name (headers ++ [h]) =
      opening name headers ++ keyword h.1 ++ ([' ', '\x22'] ++ h.2.toList.flatMap escape) ++
        ['\x22', '\n'] := by
  simp [opening, toList_headerLine]

theorem opening_concat_ne (name name' : String) (headers : List (Bool × String)) (h : Bool × String) :
    opening name [] ≠ opening name' (headers ++ [h]) := by
  intro e
  have line : name.toList ++ [' '] ++ ['\x7b', '\n'] = opening name' headers ++ keyword h.1 ++
      ([' ', '\x22'] ++ h.2.toList.flatMap escape) ++ ['\x22', '\n'] := by
    rw [← opening_concat, ← e]
    simp
  simpa using (List.append_inj' line rfl).2

theorem opening_concat_inj {name name' : String} {headers headers' : List (Bool × String)}
    {h h' : Bool × String} (e : opening name (headers ++ [h]) = opening name' (headers' ++ [h'])) :
    opening name headers = opening name' headers' ∧ h = h' := by
  rw [opening_concat, opening_concat, List.append_left_inj] at e
  obtain ⟨before, path⟩ := append_quoted_inj (not_infix_escape _) (not_infix_escape _) e
  obtain ⟨before, directory⟩ := append_keyword_inj before
  exact ⟨before, Prod.ext directory (String.toList_injective (escape_injective path))⟩

theorem opening_inj {name name' : String} {headers headers' : List (Bool × String)}
    (e : opening name headers = opening name' headers') : name = name' ∧ headers = headers' := by
  induction headers using List.reverseRecOn generalizing headers' with
  | nil =>
    rcases List.eq_nil_or_concat' headers' with rfl | ⟨headers', h', rfl⟩
    · rw [opening_nil, opening_nil, List.append_left_inj] at e
      exact ⟨String.toList_injective e, rfl⟩
    · exact absurd e (opening_concat_ne name name' headers' h')
  | append_singleton headers h ih =>
    rcases List.eq_nil_or_concat' headers' with rfl | ⟨headers', h', rfl⟩
    · exact absurd e.symm (opening_concat_ne name' name headers h)
    · obtain ⟨front, rfl⟩ := opening_concat_inj e
      obtain ⟨rfl, rfl⟩ := ih front
      exact ⟨rfl, rfl⟩

theorem toList_render (isDirectory : Path → Bool) (m : ModuleMap) :
    (m.render isDirectory).toList = "module ".toList ++
      opening m.name (m.headers.map fun h => (isDirectory ⟨h⟩, h)) ++ "    export *\n\x7d\n".toList := by
  simp [render, frame, opening, List.flatMap_map]

/-- Two module maps have the same text only if they are the same map, and the same of its headers
are directories. -/
theorem render_eq_render_iff (isDirectory isDirectory' : Path → Bool) (m m' : ModuleMap) :
    m.render isDirectory = m'.render isDirectory' ↔
      m.name = m'.name ∧ m.headers = m'.headers ∧
        ∀ h ∈ m.headers, isDirectory ⟨h⟩ = isDirectory' ⟨h⟩ := by
  constructor
  · intro e
    have text := congrArg String.toList e
    rw [toList_render, toList_render, List.append_left_inj, List.append_right_inj] at text
    obtain ⟨name, lines⟩ := opening_inj text
    have headers : m.headers = m'.headers := by
      simpa [Function.comp_def] using congrArg (List.map Prod.snd) lines
    rw [← headers] at lines
    refine ⟨name, headers, fun h hh => ?_⟩
    exact congrArg Prod.fst (List.map_inj_left.1 lines h hh)
  · rintro ⟨name, headers, directories⟩
    have lines : m.headers.map (fun h => headerLine (isDirectory ⟨h⟩) h) =
        m.headers.map fun h => headerLine (isDirectory' ⟨h⟩) h := by
      apply List.map_congr_left
      intro h hh
      rw [directories h hh]
    rw [render, render, lines, name, headers]

end NativeBuild.ModuleMap
