import NativeBuild.Proofs.Path.Trail

namespace NativeBuild.Path

def Step.Spelled (s : Step) : Prop :=
  '/' ∉ s.label.toList ∧ ofSegment? s.label.toList = some s

instance (s : Step) : Decidable s.Spelled :=
  inferInstanceAs (Decidable (_ ∧ _))

theorem toList_label_ofSegment? {segment : List Char} {s : Step}
    (h : ofSegment? segment = some s) : s.label.toList = segment := by
  unfold ofSegment? at h
  split at h
  · cases h
  · split at h
    · rename_i dots
      cases h
      exact dots.symm
    · cases h
      exact String.toList_ofList

theorem spelled_of_mem_trail {p : Path} {s : Step} (h : s ∈ p.trail) : s.Spelled := by
  obtain ⟨segment, hm, hs⟩ := List.mem_filterMap.1 h
  rw [Step.Spelled, toList_label_ofSegment? hs]
  exact ⟨Text.not_mem_of_mem_splitOn hm, hs⟩

namespace Step.Spelled

variable {s : Step}

theorem exists_head (h : s.Spelled) : ∃ c cs, s.label.toList = c :: cs ∧ c ≠ '/' := by
  obtain ⟨noSlash, hs⟩ := h
  cases hl : s.label.toList with
  | nil => simp [hl, ofSegment?, isIdle] at hs
  | cons c cs =>
    refine ⟨c, cs, rfl, ?_⟩
    rintro rfl
    simp [hl] at noSlash

theorem isAbsolute_label (h : s.Spelled) : isAbsolute ⟨s.label⟩ = false := by
  obtain ⟨c, cs, e, hc⟩ := h.exists_head
  simp [isAbsolute, e, hc]

theorem trail_label (h : s.Spelled) : trail ⟨s.label⟩ = [s] := by
  have slashes : ∀ t ∈ [s.label.toList], '/' ∉ t := by simpa using h.1
  simpa [trail, h.2] using trailOf_intercalate slashes

theorem not_endsInSlash_label (h : s.Spelled) : endsInSlash ⟨s.label⟩ = false := by
  rw [Bool.eq_false_iff]
  intro hs
  obtain ⟨front, hf⟩ := endsInSlash_iff.1 hs
  exact h.1 (by simp [hf])

end Step.Spelled

theorem steps_of_notMem {p : Path} (slash : '/' ∉ p.text.toList) :
    p.steps = if p.text.toList = ['.'] then [.current] else (ofSegment? p.text.toList).toList := by
  have body : (divide p.text.toList).1 = if p.text.toList = ['.'] then .here else .bare := by
    unfold divide
    split <;> simp_all
  have trail : p.trail = (ofSegment? p.text.toList).toList := by
    rw [Path.trail, trailOf, splitOn_of_notMem slash]
    cases h : ofSegment? p.text.toList <;> simp [h]
  rw [steps_eq, body, trail]
  split
  · rename_i dot
    rw [dot]
    rfl
  · rfl

theorem spelled_name_iff {name : String} : (Step.name name).Spelled ↔
    name ≠ "" ∧ name ≠ "." ∧ name ≠ ".." ∧ '/' ∉ name.toList := by
  have text (s : String) : name = s ↔ name.toList = s.toList := String.toList_inj.symm
  have idle : isIdle name.toList = true ↔ name = "" ∨ name = "." := by
    rw [isIdle, Bool.or_eq_true, List.isEmpty_iff, beq_iff_eq, text "", text "."]
    rfl
  have dots : name.toList = ['.', '.'] ↔ name = ".." := (text "..").symm
  simp only [Step.Spelled, Step.label, ofSegment?, idle, dots, String.ofList_toList]
  by_cases still : name = "" ∨ name = "."
  · rw [if_pos still]
    grind
  · by_cases up : name = ".."
    · rw [if_neg still, if_pos up]
      grind
    · rw [if_neg still, if_neg up]
      grind

theorem isPlainName_iff_spelled {name : String} :
    isPlainName name = true ↔ (Step.name name).Spelled ∧ '\\' ∉ name.toList := by
  by_cases slash : '/' ∈ name.toList
  · simp [isPlainName, Step.Spelled, Step.label, slash]
  · rw [isPlainName, steps_of_notMem slash]
    by_cases here : name.toList = ['.']
    · simp [here, Step.Spelled, Step.label, ofSegment?, isIdle]
    · cases hs : ofSegment? name.toList with
      | none => simp [here, hs, Step.Spelled, Step.label]
      | some s =>
        have label := toList_label_ofSegment? hs
        cases s with
        | root | current | parent => simp [here, hs, Step.Spelled, Step.label]
        | name other =>
          obtain rfl : other = name := String.toList_injective label
          simp [here, hs, Step.Spelled, Step.label, slash]

theorem isPlainName_iff {name : String} : isPlainName name = true ↔
    name ≠ "" ∧ name ≠ "." ∧ name ≠ ".." ∧ '/' ∉ name.toList ∧ '\\' ∉ name.toList := by
  rw [isPlainName_iff_spelled, spelled_name_iff, and_assoc, and_assoc, and_assoc]

section Extend

variable {p q : Path} {s : Step} {steps : List Step}

theorem trail_child (hs : s.Spelled) : (p.child s.label).trail = p.trail ++ [s] := by
  rw [child, trail_join hs.isAbsolute_label, hs.trail_label]

theorem isAbsolute_child_of_spelled (hs : s.Spelled) (p : Path) :
    (p.child s.label).isAbsolute = p.isAbsolute := by
  rw [child, isAbsolute_join, hs.isAbsolute_label, Bool.or_false]

theorem not_endsIdle_child (hs : s.Spelled) (p : Path) : (p.child s.label).endsIdle = false := by
  have idle : isIdle s.label.toList = false := by
    rw [Bool.eq_false_iff]
    intro idle
    cases (ofSegment?_idle idle).symm.trans hs.2
  rw [child, endsIdle_join hs.isAbsolute_label, endsIdle, splitOn_of_notMem hs.1]
  exact idle

theorem trail_join_child (hs : s.Spelled) (p q : Path) :
    (p.join (q.child s.label)).trail = (p.join q).trail ++ [s] := by
  have absolute := isAbsolute_child_of_spelled hs q
  cases hq : q.isAbsolute with
  | true =>
    rw [join_of_isAbsolute (absolute.trans hq), join_of_isAbsolute hq, trail_child hs]
  | false =>
    rw [trail_join (absolute.trans hq), trail_join hq, trail_child hs, List.append_assoc]

theorem extend_cons (p : Path) (s : Step) (steps : List Step) :
    p.extend (s :: steps) = (p.child s.label).extend steps := rfl

theorem extend_append (p : Path) (steps more : List Step) :
    p.extend (steps ++ more) = (p.extend steps).extend more :=
  List.foldl_append

variable (spelled : ∀ s ∈ steps, s.Spelled)
include spelled

theorem trail_extend : (p.extend steps).trail = p.trail ++ steps := by
  induction steps generalizing p with
  | nil => simp [extend]
  | cons s steps ih =>
    rw [List.forall_mem_cons] at spelled
    rw [extend_cons, ih spelled.2, trail_child spelled.1, List.append_assoc, List.singleton_append]

theorem prefix_extend : p.text.toList <+: (p.extend steps).text.toList := by
  induction steps generalizing p with
  | nil => exact List.prefix_rfl
  | cons s steps ih =>
    rw [List.forall_mem_cons] at spelled
    exact (prefix_join spelled.1.isAbsolute_label).trans (ih spelled.2)

omit spelled in
theorem start_prefix_extend {cs : List Char} (hp : p.endsInSlash = true) (e : s.label.toList = cs)
    (spelled : ∀ t ∈ s :: steps, t.Spelled) :
    p.text.toList ++ cs <+: (p.extend (s :: steps)).text.toList := by
  rw [List.forall_mem_cons] at spelled
  rw [← e, ← toList_join_of_endsInSlash hp spelled.1.isAbsolute_label]
  exact prefix_extend spelled.2

theorem not_endsInSlash_extend (hne : steps ≠ []) : (p.extend steps).endsInSlash = false := by
  obtain ⟨front, s, rfl⟩ := (List.eq_nil_or_concat' steps).resolve_left hne
  have hs : s.Spelled := spelled s (by simp)
  obtain ⟨c, cs, e, -⟩ := hs.exists_head
  have text : s.label ≠ "" := by
    intro h
    simp [h] at e
  rw [extend_append, ← hs.not_endsInSlash_label]
  exact endsInSlash_join hs.isAbsolute_label text

end Extend

section Absolute

variable {cwd p q : Path}

theorem text_ne_of_isAbsolute (h : p.isAbsolute = true) : p.text ≠ "" := by
  intro hp
  simp [isAbsolute, hp] at h

theorem dropWhile_trail (p : Path) : p.trail.dropWhile (· == .current) = p.trail := by
  cases ht : p.trail with
  | nil => rfl
  | cons s steps =>
    have hs : s ∈ p.trail := by simp [ht]
    rcases mem_trailOf hs with rfl | ⟨name, rfl⟩ <;> rfl

theorem dropWhile_steps (p : Path) : p.steps.dropWhile (· == .current) =
    if p.isAbsolute then .root :: p.trail else p.trail := by
  have absolute := divide_root_iff (p := p)
  rw [steps_eq]
  cases ha : (divide p.text.toList).1 with
  | root =>
    rw [if_pos (absolute.1 ha)]
    rfl
  | here =>
    rw [if_neg (by simp [← absolute, ha])]
    exact dropWhile_trail p
  | bare =>
    rw [if_neg (by simp [← absolute, ha])]
    exact dropWhile_trail p

def isDoubled (p : Path) : Bool :=
  "//".toList.isPrefixOf p.text.toList && !"///".toList.isPrefixOf p.text.toList

theorem isAbsolute_of_isDoubled (h : p.isDoubled = true) : p.isAbsolute = true := by
  rw [isDoubled, Bool.and_eq_true, List.isPrefixOf_iff_prefix] at h
  obtain ⟨rest, hr⟩ := h.1
  simp [isAbsolute, ← hr]

theorem isDoubled_of_relative (h : p.isAbsolute = false) : p.isDoubled = false := by
  rw [Bool.eq_false_iff]
  intro doubled
  simp [isAbsolute_of_isDoubled doubled] at h

/-- The directory that the trail of a path starts from. -/
def base (cwd p : Path) : Path :=
  if p.isDoubled then ⟨"//"⟩ else if p.isAbsolute then ⟨"/"⟩ else cwd

theorem absolute?_eq (cwd : Path) (h : p.text ≠ "") : absolute? cwd p =
    some (if p.endsInSlash then ((base cwd p).extend p.trail).join ⟨""⟩
      else (base cwd p).extend p.trail) := by
  rw [absolute?, if_neg h, dropWhile_steps]
  unfold base
  cases hd : p.isDoubled with
  | true =>
    have ha := isAbsolute_of_isDoubled hd
    unfold isDoubled at hd
    simp only [hd, ha, if_true, List.tail_cons]
  | false =>
    unfold isDoubled at hd
    cases ha : p.isAbsolute with
    | true =>
      have root : (⟨""⟩ : Path).extend (.root :: p.trail) = (⟨"/"⟩ : Path).extend p.trail := rfl
      simp only [hd, if_true, Bool.false_eq_true, if_false, root]
    | false => simp only [hd, Bool.false_eq_true, if_false]

theorem trail_root : (⟨"/"⟩ : Path).trail = [] := rfl

theorem absolute?_of_parent? (cwd : Path) (h : p.parent? = some q) (hq : q.text ≠ "")
    (single : q.isDoubled = false) : absolute? cwd q = some ((base cwd q).extend q.trail) := by
  rw [absolute?_eq cwd hq]
  cases hs : q.endsInSlash with
  | false => rfl
  | true =>
    have root : q = ⟨"/"⟩ := congrArg Path.mk (text_eq_of_endsInSlash h hs)
    subst root
    have start : base cwd ⟨"/"⟩ = ⟨"/"⟩ := rfl
    rw [if_pos rfl, start, trail_root]
    exact congrArg some (join_empty hs)

theorem isAbsolute_absolute? (hc : cwd.isAbsolute = true) (h : absolute? cwd p = some q) :
    q.isAbsolute = true := by
  by_cases hp : p.text = ""
  · simp [absolute?, hp] at h
  · have hb : (base cwd p).isAbsolute = true := by
      unfold base
      split
      · rfl
      · split
        · rfl
        · exact hc
    have hx := isAbsolute_extend hb p.trail
    rw [absolute?_eq cwd hp] at h
    cases h
    split
    · simp [isAbsolute_join, hx]
    · exact hx

end Absolute

/-- A path that is written as its steps below the root, which is how a working directory is given.
-/
def IsNormal (p : Path) : Prop :=
  p = (⟨"/"⟩ : Path).extend p.trail

theorem isNormal_extend {steps : List Step} (spelled : ∀ s ∈ steps, s.Spelled) :
    ((⟨"/"⟩ : Path).extend steps).IsNormal := by
  rw [IsNormal, trail_extend spelled, trail_root, List.nil_append]

section Normal

variable {w p q : Path}

theorem isDoubled_of_single {c : Char} {rest : List Char} (hc : c ≠ '/')
    (single : '/' :: c :: rest <+: p.text.toList) (h : q.text.toList <+: p.text.toList) :
    q.isDoubled = false := by
  rw [Bool.eq_false_iff, isDoubled, ne_eq, Bool.and_eq_true, List.isPrefixOf_iff_prefix]
  intro doubled
  have both : ['/', '/'] <+: '/' :: c :: rest :=
    List.prefix_of_prefix_length_le (doubled.1.trans h) single (by simp)
  simp [hc.symm] at both

variable (hw : w.IsNormal)
include hw

theorem IsNormal.isAbsolute : w.isAbsolute = true := by
  rw [hw]
  exact isAbsolute_extend rfl _

theorem IsNormal.extend (steps : List Step) :
    w.extend steps = (⟨"/"⟩ : Path).extend (w.trail ++ steps) := by
  rw [extend_append, ← hw]

theorem IsNormal.exists_prefix_join (hq : q.isAbsolute = false) (hne : q.text ≠ "") :
    ∃ c rest, c ≠ '/' ∧ '/' :: c :: rest <+: (w.join q).text.toList := by
  have root : (⟨"/"⟩ : Path).endsInSlash = true := rfl
  cases ht : w.trail with
  | nil =>
    rw [IsNormal, ht] at hw
    obtain ⟨c, cs, hl⟩ : ∃ c cs, q.text.toList = c :: cs :=
      List.exists_cons_of_ne_nil (by simpa using hne)
    refine ⟨c, cs, by simpa [Path.isAbsolute, hl] using hq, ?_⟩
    have text := toList_join_of_endsInSlash root hq
    rw [hl] at text
    rw [hw]
    exact ⟨[], (List.append_nil _).trans text.symm⟩
  | cons s steps =>
    have spelled : ∀ t ∈ s :: steps, t.Spelled := by
      rw [← ht]
      exact fun _ => spelled_of_mem_trail
    obtain ⟨c, cs, e, hc⟩ := (spelled s List.mem_cons_self).exists_head
    refine ⟨c, cs, hc, List.IsPrefix.trans ?_ (prefix_join hq)⟩
    rw [hw, ht]
    exact start_prefix_extend root e spelled

theorem IsNormal.absolute?_parent?_join (hp : p.isAbsolute = false) (h : p.parent? = some q)
    (hq : q.text ≠ "") :
    ∃ q', (w.join p).parent? = some q' ∧ absolute? w q' = absolute? w q := by
  have hne := trail_ne_nil h hq
  have hpt : p.text ≠ "" := by
    intro ht
    simp [trail, ht] at hne
  have whole := trail_join (p := w) hp
  obtain ⟨q', h'⟩ := exists_parent? (p := w.join p) (by simp [whole, hne])
  refine ⟨q', h', ?_⟩
  have relative : q.isAbsolute = false := (isAbsolute_parent? h).trans hp
  have absolute : q'.isAbsolute = true := by
    simp [isAbsolute_parent? h', isAbsolute_join, hw.isAbsolute]
  obtain ⟨c, rest, hc, begins⟩ := hw.exists_prefix_join hp hpt
  have single := isDoubled_of_relative relative
  have single' := isDoubled_of_single hc begins (prefix_text_parent? h')
  have below : base w q = w := by simp [base, single, relative]
  have above : base w q' = ⟨"/"⟩ := by simp [base, single', absolute]
  have steps : q'.trail = w.trail ++ q.trail := by
    rw [trail_parent? h', whole, trail_parent? h, List.dropLast_append_of_ne_nil hne]
  rw [absolute?_of_parent? w h hq single, below,
    absolute?_of_parent? w h' (text_ne_of_isAbsolute absolute) single', above, hw.extend, steps]

end Normal

def IsStart (b : Path) : Prop :=
  b = ⟨"/"⟩ ∨ b = ⟨"//"⟩

section Again

variable {cwd w p q b : Path} {steps : List Step}

theorem endsInSlash_join_empty (h : p.text ≠ "") : (p.join ⟨""⟩).endsInSlash = true := by
  cases hs : p.endsInSlash with
  | true => rwa [join_empty hs]
  | false =>
    obtain ⟨front, hj, -⟩ := text_join (q := ⟨""⟩) h rfl
    rw [endsInSlash_iff]
    exact ⟨front, hj⟩

theorem base_of_prefix (hb : b.IsStart) {c : Char} {rest : List Char} (hc : c ≠ '/')
    (h : b.text.toList ++ c :: rest <+: p.text.toList) (cwd : Path) : base cwd p = b := by
  obtain ⟨more, e⟩ := h
  rcases hb with rfl | rfl
  · simp [base, isDoubled, isAbsolute, ← e, List.isPrefixOf, hc.symm]
  · simp [base, isDoubled, ← e, List.isPrefixOf, hc.symm]

variable (hb : b.IsStart)
include hb

theorem IsStart.isAbsolute : b.isAbsolute = true := by
  rcases hb with rfl | rfl <;> rfl

theorem IsStart.endsInSlash : b.endsInSlash = true := by
  rcases hb with rfl | rfl <;> rfl

theorem IsStart.trail : b.trail = [] := by
  rcases hb with rfl | rfl <;> rfl

variable (spelled : ∀ s ∈ steps, s.Spelled)
include spelled

theorem IsStart.base_extend (hq : q = b.extend steps ∨ q = (b.extend steps).join ⟨""⟩) :
    base cwd q = b := by
  cases steps with
  | nil =>
    have same : q = b := by
      rcases hq with rfl | rfl
      · rfl
      · exact join_empty hb.endsInSlash
    rcases hb with rfl | rfl <;> subst same <;> rfl
  | cons s steps =>
    obtain ⟨c, cs, e, hc⟩ := (spelled s List.mem_cons_self).exists_head
    have whole := start_prefix_extend hb.endsInSlash e spelled
    apply base_of_prefix hb hc
    rcases hq with rfl | rfl
    · exact whole
    · exact whole.trans (prefix_join rfl)

theorem IsStart.absolute?_extend (hq : q = b.extend steps ∨ q = (b.extend steps).join ⟨""⟩) :
    absolute? cwd q = some q := by
  have shown : (b.extend steps).text ≠ "" :=
    text_ne_of_isAbsolute (isAbsolute_extend hb.isAbsolute steps)
  have steps_eq : (b.extend steps).trail = steps := by rw [trail_extend spelled, hb.trail, List.nil_append]
  have start : base cwd q = b := hb.base_extend spelled hq
  rcases hq with rfl | rfl
  · rw [absolute?_eq cwd shown, start, steps_eq]
    split
    · rename_i hs
      rw [join_empty hs]
    · rfl
  · have slash := endsInSlash_join_empty shown
    have text : ((b.extend steps).join ⟨""⟩).text ≠ "" := by
      intro h
      simp [Path.endsInSlash, h] at slash
    rw [absolute?_eq cwd text, start, trail_join rfl, steps_eq, slash, if_pos rfl]
    simp [Path.trail]

omit hb spelled in
theorem IsNormal.absolute?_absolute? (hw : w.IsNormal) (h : absolute? w p = some q) :
    absolute? w q = some q := by
  have hp : p.text ≠ "" := by
    intro hp
    simp [absolute?, hp] at h
  have form : ∃ (b : Path) (steps : List Step), b.IsStart ∧ (∀ s ∈ steps, s.Spelled) ∧
      (base w p).extend p.trail = b.extend steps := by
    have spelled : ∀ s ∈ p.trail, s.Spelled := fun _ => spelled_of_mem_trail
    unfold base
    split
    · exact ⟨⟨"//"⟩, p.trail, .inr rfl, spelled, rfl⟩
    · split
      · exact ⟨⟨"/"⟩, p.trail, .inl rfl, spelled, rfl⟩
      · refine ⟨⟨"/"⟩, w.trail ++ p.trail, .inl rfl, ?_, hw.extend p.trail⟩
        exact List.forall_mem_append.2 ⟨fun _ => spelled_of_mem_trail, spelled⟩
  obtain ⟨b, steps, hb, spelled, e⟩ := form
  rw [absolute?_eq w hp, e, Option.some.injEq] at h
  refine hb.absolute?_extend spelled ?_
  split at h
  · exact .inr h.symm
  · exact .inl h.symm

end Again

end NativeBuild.Path
