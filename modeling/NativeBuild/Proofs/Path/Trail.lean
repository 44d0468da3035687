import Mathlib.Data.List.Basic
import Mathlib.Data.List.Induction
import NativeBuild.Path
import NativeBuild.Proofs.Text.Segments

namespace NativeBuild.Path

open Text (not_mem_of_mem_splitOn)

@[simp] theorem ofSegment?_idle {s : List Char} (h : isIdle s = true) : ofSegment? s = none := by
  simp [ofSegment?, h]

theorem ofSegment?_isSome {s : List Char} (h : isIdle s = false) : (ofSegment? s).isSome := by
  unfold ofSegment?
  split <;> simp_all
  split <;> simp

/-- The steps of the segments between slashes. -/
def trailOf (cs : List Char) : List Step :=
  (cs.splitOn '/').filterMap ofSegment?

def trail (p : Path) : List Step :=
  trailOf p.text.toList

@[simp] theorem trailOf_nil : trailOf [] = [] := rfl

@[simp] theorem trailOf_append_slash (xs ys : List Char) :
    trailOf (xs ++ '/' :: ys) = trailOf xs ++ trailOf ys := by
  simp [trailOf, List.splitOn_append_cons_self]

@[simp] theorem trailOf_slash (ys : List Char) : trailOf ('/' :: ys) = trailOf ys :=
  trailOf_append_slash [] ys

theorem mem_trailOf {cs : List Char} {s : Step} (h : s ∈ trailOf cs) :
    s = .parent ∨ ∃ name, s = .name name := by
  obtain ⟨segment, -, hs⟩ := List.mem_filterMap.1 h
  unfold ofSegment? at hs
  split at hs
  · cases hs
  · split at hs
    · cases hs
      exact .inl rfl
    · cases hs
      exact .inr ⟨_, rfl⟩

theorem trailOf_intercalate {body : List (List Char)} (h : ∀ s ∈ body, '/' ∉ s) :
    trailOf (['/'].intercalate body) = body.filterMap ofSegment? := by
  cases body with
  | nil => rfl
  | cons s body => rw [trailOf, List.splitOn_intercalate _ h (List.cons_ne_nil s body)]

theorem assemble_divide (cs : List Char) : assemble (divide cs).1 (divide cs).2 = cs := by
  unfold divide
  split
  · simp [assemble]
  · rfl
  · rename_i rest
    cases hs : rest.splitOn '/' with
    | nil => simp at hs
    | cons s body =>
      have joined : ['/'].intercalate (rest.splitOn '/') = rest := List.intercalate_splitOn '/'
      rw [hs] at joined
      simp [assemble, joined]
  · simp [assemble]

theorem not_mem_of_mem_divide {cs s : List Char} (h : s ∈ (divide cs).2) : '/' ∉ s := by
  unfold divide at h
  split at h
  · exact not_mem_of_mem_splitOn h
  · cases h
  · exact not_mem_of_mem_splitOn h
  · exact not_mem_of_mem_splitOn h

theorem trailOf_assemble {body : List (List Char)} (h : ∀ s ∈ body, '/' ∉ s) (anchor : Anchor) :
    trailOf (assemble anchor body) = body.filterMap ofSegment? := by
  cases anchor with
  | root => simp [assemble, trailOf_intercalate h]
  | bare => simp [assemble, trailOf_intercalate h]
  | here =>
    cases body with
    | nil => rfl
    | cons s body =>
      have := trailOf_append_slash ['.'] (['/'].intercalate (s :: body))
      rw [trailOf_intercalate h] at this
      exact this

theorem trailOf_divide (cs : List Char) : (divide cs).2.filterMap ofSegment? = trailOf cs := by
  have slashes : ∀ s ∈ (divide cs).2, '/' ∉ s := fun _ => not_mem_of_mem_divide
  rw [← trailOf_assemble slashes (divide cs).1, assemble_divide]

theorem steps_eq (p : Path) :
    p.steps = (divide p.text.toList).1.step?.toList ++ p.trail := by
  rw [steps, trail, ← trailOf_divide]

theorem divide_root_iff {p : Path} : (divide p.text.toList).1 = .root ↔ p.isAbsolute = true := by
  unfold divide isAbsolute
  split <;> simp_all
  rename_i h _ _
  cases hp : p.text.toList with
  | nil => simp
  | cons c cs =>
    simp only [List.head?_cons, Option.some.injEq]
    rintro rfl
    exact h cs hp

section Join

variable {p q : Path}

theorem endsInSlash_iff : p.endsInSlash = true ↔ ∃ front, p.text.toList = front ++ ['/'] := by
  simp [endsInSlash, List.getLast?_eq_some_iff]

theorem text_join_of_empty (h : p.text = "") (hq : q.isAbsolute = false) : p.join q = q := by
  simp [join, hq, h]

theorem text_join (hp : p.text ≠ "") (hq : q.isAbsolute = false) : ∃ front,
    (p.join q).text.toList = front ++ '/' :: q.text.toList ∧
      (p.text.toList = front ∨ p.text.toList = front ++ ['/']) := by
  by_cases hs : p.endsInSlash = true
  · obtain ⟨front, hf⟩ := endsInSlash_iff.1 hs
    refine ⟨front, ?_, .inr hf⟩
    simp [join, hq, hs, hf]
  · exact ⟨p.text.toList, by simp [join, hq, hs, hp], .inl rfl⟩

theorem trail_join (hq : q.isAbsolute = false) : (p.join q).trail = p.trail ++ q.trail := by
  by_cases hp : p.text = ""
  · have none_yet : p.trail = [] := by simp [trail, hp]
    rw [text_join_of_empty hp hq, none_yet, List.nil_append]
  · obtain ⟨front, hj, hf⟩ := text_join hp hq
    rw [trail, trail, trail, hj, trailOf_append_slash]
    rcases hf with hf | hf
    · rw [hf]
    · rw [hf, trailOf_append_slash, trailOf_nil, List.append_nil]

theorem anchor_append_slash {cs : List Char} (h : cs ≠ []) (rest : List Char) :
    (divide (cs ++ '/' :: rest)).1 = (divide cs).1 := by
  match cs with
  | [c] =>
    by_cases root : c = '/'
    · simp [divide, root]
    · by_cases dot : c = '.' <;> simp [divide, root, dot]
  | c :: d :: cs =>
    by_cases root : c = '/'
    · simp [divide, root]
    · by_cases dot : c = '.'
      · by_cases slash : d = '/' <;> simp [divide, dot, slash]
      · simp [divide, root, dot]

theorem steps_join (hp : p.text ≠ "") (hq : q.isAbsolute = false) :
    (p.join q).steps = p.steps ++ q.trail := by
  have anchor : (divide (p.join q).text.toList).1 = (divide p.text.toList).1 := by
    obtain ⟨front, hj, hf⟩ := text_join hp hq
    by_cases root : front = []
    · subst root
      have slash : p.text.toList = ['/'] := hf.resolve_left (by simpa using hp)
      rw [hj, slash]
      rfl
    · rw [hj, anchor_append_slash root]
      rcases hf with hf | hf
      · rw [hf]
      · rw [hf, anchor_append_slash root]
  rw [steps_eq, steps_eq, anchor, trail_join hq, List.append_assoc]

theorem text_child_ne {name : String} (h : name ≠ "") (p : Path) : (p.child name).text ≠ "" := by
  unfold child join
  split
  · exact h
  · split <;> simp [h]

theorem steps_child {name : String} (hp : p.text ≠ "") (hn : isAbsolute ⟨name⟩ = false) :
    (p.child name).steps = p.steps ++ trail ⟨name⟩ :=
  steps_join hp hn

theorem prefix_join (hq : q.isAbsolute = false) : p.text.toList <+: (p.join q).text.toList := by
  by_cases hp : p.text = ""
  · simp [hp]
  · obtain ⟨front, hj, hf | hf⟩ := text_join hp hq
    · rw [hj, hf]
      exact List.prefix_append _ _
    · rw [hj, hf]
      exact ⟨q.text.toList, by simp⟩

theorem toList_join_of_endsInSlash (hp : p.endsInSlash = true) (hq : q.isAbsolute = false) :
    (p.join q).text.toList = p.text.toList ++ q.text.toList := by
  simp [join, hq, hp]

theorem endsInSlash_join (hq : q.isAbsolute = false) (hne : q.text ≠ "") :
    (p.join q).endsInSlash = q.endsInSlash := by
  by_cases hp : p.text = ""
  · rw [text_join_of_empty hp hq]
  · obtain ⟨front, hj, -⟩ := text_join hp hq
    have hne : q.text.toList ≠ [] := by simpa using hne
    rw [endsInSlash, endsInSlash, hj, List.getLast?_append_cons, List.getLast?_cons_of_ne_nil hne]

theorem join_empty (h : p.endsInSlash = true) : p.join ⟨""⟩ = p := by
  simp [join, isAbsolute, h]

theorem join_of_isAbsolute (hq : q.isAbsolute = true) (p : Path) : p.join q = q := by
  rw [join, if_pos hq]

theorem size_join (hq : q.isAbsolute = false) :
    p.text.utf8ByteSize + q.text.utf8ByteSize ≤ (p.join q).text.utf8ByteSize ∧
      (p.join q).text.utf8ByteSize ≤ p.text.utf8ByteSize + 1 + q.text.utf8ByteSize := by
  have slash : "/".utf8ByteSize = 1 := rfl
  rw [join, hq, if_neg Bool.false_ne_true]
  split <;> simp only [String.utf8ByteSize_append, slash] <;> omega

theorem text_eq_append (h : q.text.toList <+: p.text.toList) : ∃ rest, p.text = q.text ++ rest := by
  obtain ⟨rest, hr⟩ := h
  refine ⟨String.ofList rest, String.toList_injective ?_⟩
  rw [String.toList_append, String.toList_ofList, hr]

theorem size_le_size (h : q.text.toList <+: p.text.toList) :
    q.text.utf8ByteSize ≤ p.text.utf8ByteSize := by
  obtain ⟨rest, text⟩ := text_eq_append h
  rw [text, String.utf8ByteSize_append]
  exact Nat.le_add_right _ _

theorem size_child_le (h : q.text.toList <+: p.text.toList) {name : String}
    (hn : isAbsolute ⟨name⟩ = false) :
    (q.child name).text.utf8ByteSize ≤ (p.child name).text.utf8ByteSize := by
  by_cases same : q = p
  · exact Nat.le_of_eq (by rw [same])
  · obtain ⟨rest, text⟩ := text_eq_append h
    have more : rest.utf8ByteSize ≠ 0 := by
      rw [ne_eq, String.utf8ByteSize_eq_zero_iff]
      intro none
      rw [none, String.append_empty] at text
      exact same (congrArg Path.mk text.symm)
    have size := congrArg String.utf8ByteSize text
    rw [String.utf8ByteSize_append] at size
    have above := (size_join (p := q) hn).2
    have below := (size_join (p := p) hn).1
    rw [child, child]
    omega

theorem isAbsolute_join (p q : Path) :
    (p.join q).isAbsolute = (p.isAbsolute || q.isAbsolute) := by
  by_cases hq : q.isAbsolute = true
  · simp [join, hq]
  · rw [Bool.not_eq_true] at hq
    by_cases hp : p.text = ""
    · rw [text_join_of_empty hp hq]
      simp [isAbsolute, hp]
    · obtain ⟨front, hj, hf⟩ := text_join hp hq
      have hne : p.text.toList ≠ [] := by simpa using hp
      rw [hq, Bool.or_false, isAbsolute, isAbsolute, hj]
      cases front with
      | nil =>
        rw [hf.resolve_left hne]
        rfl
      | cons c front => rcases hf with hf | hf <;> simp [hf]

theorem isAbsolute_child (h : p.isAbsolute = true) (name : String) :
    (p.child name).isAbsolute = true := by
  simp [child, isAbsolute_join, h]

theorem isAbsolute_extend (h : p.isAbsolute = true) (steps : List Step) :
    (p.extend steps).isAbsolute = true := by
  induction steps generalizing p with
  | nil => exact h
  | cons s steps ih => exact ih (isAbsolute_child h s.label)

end Join

def endsIdle (p : Path) : Bool :=
  (p.text.toList.splitOn '/').getLast?.any isIdle

theorem endsIdle_join {p q : Path} (hq : q.isAbsolute = false) :
    (p.join q).endsIdle = q.endsIdle := by
  by_cases hp : p.text = ""
  · rw [text_join_of_empty hp hq]
  · obtain ⟨front, hj, -⟩ := text_join hp hq
    have some_segment : q.text.toList.splitOn '/' ≠ [] := by simp
    rw [endsIdle, endsIdle, hj, List.splitOn_append_cons_self,
      List.getLast?_append_of_ne_nil _ some_segment]

theorem trailOf_ne_nil {cs : List Char} (h : (cs.splitOn '/').getLast?.any isIdle = false) :
    trailOf cs ≠ [] := by
  rcases List.eq_nil_or_concat' (cs.splitOn '/') with hs | ⟨front, last, hs⟩
  · simp at hs
  · rw [hs, List.getLast?_concat, Option.any_some] at h
    obtain ⟨s, hl⟩ := Option.isSome_iff_exists.1 (ofSegment?_isSome h)
    simp [trailOf, hs, hl]

section Parent

theorem dropIdleEnd_concat (body : List (List Char)) (s : List Char) :
    dropIdleEnd (body ++ [s]) = if isIdle s then dropIdleEnd body else body ++ [s] := by
  cases h : isIdle s <;> simp [dropIdleEnd, h]

theorem filterMap_dropIdleEnd (body : List (List Char)) :
    (dropIdleEnd body).filterMap ofSegment? = body.filterMap ofSegment? := by
  induction body using List.reverseRecOn with
  | nil => rfl
  | append_singleton body s ih =>
    rw [dropIdleEnd_concat]
    cases h : isIdle s with
    | false => rfl
    | true => simp [ih, h]

theorem prefix_dropIdleEnd (body : List (List Char)) : dropIdleEnd body <+: body := by
  induction body using List.reverseRecOn with
  | nil => exact List.prefix_rfl
  | append_singleton body s ih =>
    rw [dropIdleEnd_concat]
    cases h : isIdle s with
    | false => exact List.prefix_rfl
    | true => exact ih.trans (List.prefix_append _ _)

theorem dropIdleEnd_last {body front : List (List Char)} {last : List Char}
    (h : dropIdleEnd body = front ++ [last]) : isIdle last = false := by
  induction body using List.reverseRecOn with
  | nil => simp [dropIdleEnd] at h
  | append_singleton body s ih =>
    rw [dropIdleEnd_concat] at h
    cases hs : isIdle s with
    | false =>
      simp only [hs] at h
      obtain ⟨-, rfl⟩ := List.append_singleton_inj.1 h
      exact hs
    | true => exact ih (by simpa [hs] using h)

theorem prefix_assemble {front body : List (List Char)} (h : front <+: body) (anchor : Anchor) :
    assemble anchor front <+: assemble anchor body := by
  have joined : ['/'].intercalate front <+: ['/'].intercalate body := by
    obtain ⟨rest, rfl⟩ := h
    induction front with
    | nil => exact List.nil_prefix
    | cons s front ih =>
      cases front with
      | nil =>
        cases rest with
        | nil => exact List.prefix_rfl
        | cons t rest => simp
      | cons t front => simpa using ih
  cases anchor with
  | root => simpa [assemble] using joined
  | bare => exact joined
  | here =>
    cases front with
    | nil =>
      cases body with
      | nil => exact List.prefix_rfl
      | cons s body => exact ⟨_, rfl⟩
    | cons s front =>
      cases body with
      | nil => simp at h
      | cons t body => simpa [assemble] using joined

variable {p q : Path}

theorem trail_eq_filterMap (p : Path) :
    p.trail = (dropIdleEnd (divide p.text.toList).2).filterMap ofSegment? := by
  rw [filterMap_dropIdleEnd, trailOf_divide, trail]

theorem parent?_cases (h : p.parent? = some q) :
    (q = ⟨""⟩ ∧ p.trail = [] ∧ p.isAbsolute = false) ∨
      ∃ front last, dropIdleEnd (divide p.text.toList).2 = front ++ [last] ∧
        q.text.toList = assemble (divide p.text.toList).1 (dropIdleEnd front) := by
  rcases List.eq_nil_or_concat' (dropIdleEnd (divide p.text.toList).2) with hn | ⟨front, last, hf⟩
  · have absolute := divide_root_iff (p := p)
    have none_left : p.trail = [] := by rw [trail_eq_filterMap, hn, List.filterMap_nil]
    cases ha : (divide p.text.toList).1 with
    | root => simp [parent?, hn, ha] at h
    | bare => simp [parent?, hn, ha] at h
    | here =>
      left
      simp only [parent?, hn, ha, List.reverse_nil, Option.some.injEq] at h
      exact ⟨h.symm, none_left, by simpa [ha] using absolute⟩
  · right
    refine ⟨front, last, hf, ?_⟩
    simp only [parent?, hf, List.reverse_append, List.reverse_singleton, List.singleton_append,
      List.reverse_reverse, Option.some.injEq] at h
    rw [← h, String.toList_ofList]

theorem exists_parent? (h : p.trail ≠ []) : ∃ q, p.parent? = some q := by
  rcases List.eq_nil_or_concat' (dropIdleEnd (divide p.text.toList).2) with hn | ⟨front, last, hf⟩
  · rw [trail_eq_filterMap, hn] at h
    exact absurd rfl h
  · refine ⟨⟨String.ofList (assemble (divide p.text.toList).1 (dropIdleEnd front))⟩, ?_⟩
    simp [parent?, hf]

section Last

variable {front : List (List Char)} {last : List Char}
variable (hf : dropIdleEnd (divide p.text.toList).2 = front ++ [last])
include hf

theorem trail_of_last : ∃ s, p.trail = front.filterMap ofSegment? ++ [s] := by
  obtain ⟨s, hs⟩ := Option.isSome_iff_exists.1 (ofSegment?_isSome (dropIdleEnd_last hf))
  exact ⟨s, by simp [trail_eq_filterMap, hf, hs]⟩

theorem front_prefix_divide : dropIdleEnd front <+: (divide p.text.toList).2 := by
  apply (prefix_dropIdleEnd front).trans
  apply List.IsPrefix.trans _ (prefix_dropIdleEnd _)
  rw [hf]
  exact List.prefix_append front [last]

theorem not_mem_of_mem_front : ∀ s ∈ dropIdleEnd front, '/' ∉ s :=
  fun _ hs => not_mem_of_mem_divide ((front_prefix_divide hf).subset hs)

end Last

theorem trail_ne_nil (h : p.parent? = some q) (hq : q.text ≠ "") : p.trail ≠ [] := by
  rcases parent?_cases h with ⟨rfl, -⟩ | ⟨front, last, hf, -⟩
  · exact absurd rfl hq
  · obtain ⟨s, hs⟩ := trail_of_last hf
    simp [hs]

theorem trail_parent? (h : p.parent? = some q) : q.trail = p.trail.dropLast := by
  rcases parent?_cases h with ⟨rfl, hp, -⟩ | ⟨front, last, hf, hq⟩
  · rw [hp]
    rfl
  · obtain ⟨s, hs⟩ := trail_of_last hf
    rw [hs, List.dropLast_concat, trail, hq, trailOf_assemble (not_mem_of_mem_front hf),
      filterMap_dropIdleEnd]

theorem prefix_text_parent? (h : p.parent? = some q) : q.text.toList <+: p.text.toList := by
  rcases parent?_cases h with ⟨rfl, -⟩ | ⟨front, last, hf, hq⟩
  · exact List.nil_prefix
  · have texts := prefix_assemble (front_prefix_divide hf) (divide p.text.toList).1
    rwa [assemble_divide, ← hq] at texts

theorem isAbsolute_parent? (h : p.parent? = some q) : q.isAbsolute = p.isAbsolute := by
  cases hp : p.isAbsolute with
  | true =>
    rcases parent?_cases h with ⟨-, -, relative⟩ | ⟨front, last, -, hq⟩
    · cases hp.symm.trans relative
    · rw [divide_root_iff.2 hp] at hq
      simp [isAbsolute, hq, assemble]
  | false =>
    obtain ⟨rest, hr⟩ := prefix_text_parent? h
    unfold isAbsolute at hp ⊢
    rw [← hr] at hp
    cases hq : q.text.toList with
    | nil => rfl
    | cons c cs => simpa [hq] using hp

theorem splitOn_of_notMem {cs : List Char} (h : '/' ∉ cs) : cs.splitOn '/' = [cs] := by
  have slashes : ∀ s ∈ [cs], '/' ∉ s := by simpa using h
  rw [← List.splitOn_intercalate '/' slashes (List.cons_ne_nil cs []), List.intercalate_singleton]

theorem assemble_here_ne_nil (body : List (List Char)) : assemble .here body ≠ [] := by
  cases body <;> simp [assemble]

theorem parent?_of_notMem (slash : '/' ∉ p.text.toList) (file : p.endsIdle = false) :
    p.parent? = some ⟨""⟩ := by
  have idle : isIdle p.text.toList = false := by
    simpa [endsIdle, splitOn_of_notMem slash] using file
  have alone : divide p.text.toList = (.bare, [p.text.toList]) := by
    unfold divide
    split
    · simp_all
    · simp_all [isIdle]
    · simp_all
    · rw [splitOn_of_notMem slash]
  simp [parent?, alone, dropIdleEnd, idle, assemble]

/-- Above a file that is not given from the root, its text shows a directory if there is a slash. -/
theorem text_parent?_ne_empty_iff (relative : p.isAbsolute = false) (file : p.endsIdle = false)
    (h : p.parent? = some q) : q.text ≠ "" ↔ '/' ∈ p.text.toList := by
  constructor
  · intro hq
    by_contra slash
    cases h.symm.trans (parent?_of_notMem slash file)
    exact hq rfl
  · intro slash hq
    obtain ⟨first, rest, ht, hf⟩ := List.eq_append_cons_of_mem slash
    -- A dot in front of the slash stays as it is; anything else there is a step that `q` keeps.
    by_cases here : first = ['.']
    · rcases parent?_cases h with ⟨-, hp, -⟩ | ⟨front, last, -, ha⟩
      · exact trailOf_ne_nil file hp
      · have anchor : (divide p.text.toList).1 = .here := by simp [ht, here, divide]
        rw [anchor, hq] at ha
        exact assemble_here_ne_nil _ ha.symm
    · have idle : isIdle first = false := by
        cases first with
        | nil => simp [isAbsolute, ht] at relative
        | cons c cs => simpa [isIdle] using here
      have before : trailOf first ≠ [] := by
        apply trailOf_ne_nil
        simpa [splitOn_of_notMem hf] using idle
      have after : trailOf rest ≠ [] := by
        apply trailOf_ne_nil
        rwa [endsIdle, ht, List.splitOn_append_cons_self,
          List.getLast?_append_of_ne_nil _ (by simp)] at file
      have steps : q.trail = trailOf first ++ (trailOf rest).dropLast := by
        rw [trail_parent? h, trail, ht, trailOf_append_slash, List.dropLast_append_of_ne_nil after]
      simp [trail, hq, before] at steps

theorem suffix_assemble (anchor : Anchor) (front : List (List Char)) (last : List Char) :
    last <:+ assemble anchor (front ++ [last]) := by
  have joined : last <:+ ['/'].intercalate (front ++ [last]) := by
    induction front with
    | nil => simp
    | cons s front ih =>
      have hne : front ++ [last] ≠ [] := by simp
      rw [List.cons_append, List.intercalate_cons_of_ne_nil hne]
      exact ih.trans (List.suffix_append _ _)
  cases anchor with
  | root => exact joined.trans (List.suffix_cons _ _)
  | bare => exact joined
  | here =>
    cases front with
    | nil => exact joined.trans (List.suffix_append ['.', '/'] _)
    | cons s front => exact joined.trans (List.suffix_append ['.', '/'] _)

theorem getLast?_assemble_ne (anchor : Anchor) (front : List (List Char)) {last : List Char}
    (idle : isIdle last = false) (slash : '/' ∉ last) :
    (assemble anchor (front ++ [last])).getLast? ≠ some '/' := by
  obtain ⟨initial, hi⟩ := suffix_assemble anchor front last
  have hne : last ≠ [] := by
    rintro rfl
    simp [isIdle] at idle
  rw [← hi, List.getLast?_append_of_ne_nil _ hne]
  exact fun h => slash (List.mem_of_getLast? h)

theorem getLast?_splitOn_assemble {body : List (List Char)} (slashes : ∀ s ∈ body, '/' ∉ s)
    (hne : body ≠ []) (anchor : Anchor) :
    ((assemble anchor body).splitOn '/').getLast? = body.getLast? := by
  have parts := List.splitOn_intercalate '/' slashes hne
  have after (front : List Char) :
      ((front ++ '/' :: ['/'].intercalate body).splitOn '/').getLast? = body.getLast? := by
    rw [List.splitOn_append_cons_self, parts, List.getLast?_append_of_ne_nil _ hne]
  cases anchor with
  | bare => rw [assemble, parts]
  | root => exact after []
  | here =>
    cases body with
    | nil => exact absurd rfl hne
    | cons s body => exact after ['.']

theorem endsIdle_parent? (h : p.parent? = some q) : q.trail = [] ∨ q.endsIdle = false := by
  rcases parent?_cases h with ⟨rfl, -⟩ | ⟨front, last, hf, hq⟩
  · exact .inl rfl
  · have slashes := not_mem_of_mem_front hf
    rcases List.eq_nil_or_concat' (dropIdleEnd front) with hn | ⟨front', last', hn⟩
    · left
      rw [trail, hq, trailOf_assemble slashes, hn]
      rfl
    · right
      rw [endsIdle, hq, getLast?_splitOn_assemble slashes (by simp [hn]), hn, List.getLast?_concat,
        Option.any_some]
      exact dropIdleEnd_last hn

theorem text_eq_of_endsInSlash (h : p.parent? = some q) (hs : q.endsInSlash = true) :
    q.text = "/" := by
  rw [endsInSlash, beq_iff_eq] at hs
  rcases parent?_cases h with ⟨rfl, -⟩ | ⟨front, last, hf, hq⟩
  · simp at hs
  · rw [hq] at hs
    rcases List.eq_nil_or_concat' (dropIdleEnd front) with hn | ⟨front', last', hn⟩
    · rw [hn] at hq hs
      cases ha : (divide p.text.toList).1 with
      | root =>
        rw [ha] at hq
        exact String.toList_injective hq
      | here => simp [ha, assemble] at hs
      | bare => simp [ha, assemble] at hs
    · have slash : '/' ∉ last' := not_mem_of_mem_front hf last' (by simp [hn])
      rw [hn] at hs
      exact absurd hs (getLast?_assemble_ne _ front' (dropIdleEnd_last hn) slash)

end Parent

section Ancestors

variable {p a : Path} {n : Nat}

theorem ascend_eq_cons (p : Path) (n : Nat) : ∃ above, p.ascend n = p :: above := by
  cases n with
  | zero => exact ⟨[], rfl⟩
  | succ n => exact ⟨_, rfl⟩

theorem mem_ascend (h : a ∈ p.ascend n) :
    a.trail <+: p.trail ∧ a.isAbsolute = p.isAbsolute ∧ a.text.toList <+: p.text.toList := by
  induction n generalizing p with
  | zero =>
    obtain rfl := List.mem_singleton.1 h
    exact ⟨List.prefix_rfl, rfl, List.prefix_rfl⟩
  | succ n ih =>
    rcases List.mem_cons.1 h with rfl | h
    · exact ⟨List.prefix_rfl, rfl, List.prefix_rfl⟩
    · cases hq : p.parent? with
      | none => simp [hq] at h
      | some q =>
        rw [hq] at h
        obtain ⟨trail, absolute, text⟩ := ih h
        rw [trail_parent? hq] at trail
        exact ⟨trail.trans (List.dropLast_prefix _), absolute.trans (isAbsolute_parent? hq),
          text.trans (prefix_text_parent? hq)⟩

theorem exists_mem_ascend (hn : p.trail.length ≤ n) {way : List Step} (h : way <+: p.trail) :
    ∃ a ∈ p.ascend n, a.trail = way := by
  induction n generalizing p with
  | zero =>
    have hp : p.trail = [] := List.eq_nil_of_length_eq_zero (Nat.le_zero.1 hn)
    rw [hp, List.prefix_nil] at h
    exact ⟨p, by simp [ascend], hp.trans h.symm⟩
  | succ n ih =>
    by_cases hw : way = p.trail
    · exact ⟨p, by simp [ascend], hw.symm⟩
    · have hne : p.trail ≠ [] := by
        intro hp
        rw [hp, List.prefix_nil] at h
        exact hw (h.trans hp.symm)
      obtain ⟨q, hq⟩ := exists_parent? hne
      have shorter : way <+: q.trail := by
        rw [trail_parent? hq]
        rcases List.prefix_concat_iff.1
          ((List.dropLast_concat_getLast hne).symm ▸ h) with h | h
        · exact absurd (h.trans (List.dropLast_concat_getLast hne)) hw
        · exact h
      have hl : q.trail.length ≤ n := by
        rw [trail_parent? hq, List.length_dropLast]
        omega
      obtain ⟨a, ha, e⟩ := ih hl shorter
      exact ⟨a, by simp [ascend, hq, ha], e⟩

theorem pairwise_ascend (p : Path) (n : Nat) :
    (p.ascend n).Pairwise fun a b => b.trail <+: a.trail := by
  induction n generalizing p with
  | zero => exact List.pairwise_singleton _ _
  | succ n ih =>
    refine List.pairwise_cons.2 ⟨fun b hb => ?_, ?_⟩
    · exact (mem_ascend (n := n + 1) (List.mem_cons_of_mem p hb)).1
    · cases hq : p.parent? with
      | none => simp
      | some q => exact ih q

theorem trail_length_le (p : Path) : p.trail.length ≤ p.steps.length := by
  simp [steps_eq]

theorem exists_mem_ancestors {way : List Step} (h : way <+: p.trail) :
    ∃ a ∈ p.ancestors, a.trail = way :=
  exists_mem_ascend p.trail_length_le h

end Ancestors

end NativeBuild.Path
