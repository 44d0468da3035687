import NativeBuild.Dependency
import NativeBuild.Proofs.Except
import NativeBuild.Proofs.Text.Segments

namespace NativeBuild.Dependency

open Text

def IsPart (divider : Char) (s : List Char) : Prop :=
  s ≠ [] ∧ divider ∉ s

instance (divider : Char) (s : List Char) : Decidable (IsPart divider s) :=
  inferInstanceAs (Decidable (s ≠ [] ∧ divider ∉ s))

inductive IsProjectPath : List Char → Prop
  | root : IsProjectPath [':']
  | below {parts} : parts ≠ [] → (∀ s ∈ parts, IsPart ':' s) → IsProjectPath (parts.flatMap (':' :: ·))

/-- The texts that stand for a dependency. -/
inductive Spells : List Char → Dependency → Prop
  | named {m} : IsPart ':' m → Spells m (.module "" (.ofList m) "")
  | grouped {g m} : IsPart ':' g → g ≠ "library".toList → IsPart ':' m →
      Spells (g ++ ':' :: m) (.module (.ofList g) (.ofList m) "")
  | versioned {g m v} : IsPart ':' g → g ≠ "library".toList → IsPart ':' m → IsPart ':' v →
      Spells (g ++ ':' :: (m ++ ':' :: v)) (.module (.ofList g) (.ofList m) (.ofList v))
  | project {path} : IsProjectPath path → Spells path (.project (.ofList path))
  | library {p l v} : IsPart '/' p → IsPart '/' l → IsPart '/' v →
      Spells (libraryMark ++ (p ++ '/' :: (l ++ '/' :: v)))
        (.library (.ofList p) (.ofList l) (.ofList v))

section Grammar

variable {cs : List Char} {d : Dependency}

theorem IsProjectPath.head? {path : List Char} (h : IsProjectPath path) : path.head? = some ':' := by
  cases h with
  | root => rfl
  | @below parts nonempty _ =>
    cases parts with
    | nil => exact absurd rfl nonempty
    | cons s parts => rfl

theorem text_library (projectPath name variant : String) :
    (Dependency.library projectPath name variant).text =
      "library:" ++ projectPath ++ "/" ++ name ++ "/" ++ variant := rfl

theorem toList_text_library (projectPath name variant : String) :
    (Dependency.library projectPath name variant).text.toList = libraryMark ++
      (projectPath.toList ++ '/' :: (name.toList ++ '/' :: variant.toList)) := by
  rw [text_library]
  simp only [String.toList_append, List.append_assoc]
  rfl

theorem Spells.text (h : Spells cs d) : d.text.toList = cs := by
  cases h with
  | named hm => simp [Dependency.text]
  | grouped hg _ hm => simp [Dependency.text, hg.1]
  | versioned hg _ hm hv => simp [Dependency.text, hg.1, hv.1]
  | project hp => simp [Dependency.text]
  | library hp hl hv => simp only [toList_text_library, String.toList_ofList]

end Grammar

section Reading

theorem libraryMark_eq : libraryMark = "library".toList ++ [':'] := by decide

variable {c : Char} {cs : List Char} {parts : List (List Char)} {d : Dependency}

theorem splitOn_eq_parts_iff : cs.splitOn c = parts ∧ parts.any (·.isEmpty) = false ↔
    parts ≠ [] ∧ (∀ s ∈ parts, IsPart c s) ∧ [c].intercalate parts = cs := by
  rw [splitOn_eq_iff]
  simp only [IsPart, List.any_eq_false, List.isEmpty_iff]
  grind

theorem flatMap_cons_eq (nonempty : parts ≠ []) :
    parts.flatMap (c :: ·) = c :: [c].intercalate parts := by
  induction parts with
  | nil => exact absurd rfl nonempty
  | cons s parts ih =>
    cases parts with
    | nil => simp
    | cons s' parts => simpa using ih (List.cons_ne_nil s' parts)

theorem isProjectPath_cons_iff : IsProjectPath (':' :: cs) ↔
    cs = [] ∨ (cs.splitOn ':').any (·.isEmpty) = false := by
  constructor
  · intro h
    generalize e : ':' :: cs = path at h
    cases h with
    | root => exact .inl (List.cons.inj e).2
    | below nonempty h =>
      rw [flatMap_cons_eq nonempty] at e
      have joined := (List.cons.inj e).2.symm
      obtain ⟨split, filled⟩ := splitOn_eq_parts_iff.2 ⟨nonempty, h, joined⟩
      exact .inr (split ▸ filled)
  · rintro (rfl | filled)
    · exact .root
    · obtain ⟨nonempty, h, joined⟩ := splitOn_eq_parts_iff.1 ⟨rfl, filled⟩
      have path := IsProjectPath.below nonempty h
      rwa [flatMap_cons_eq nonempty, joined] at path

theorem ofProjectPath_eq_ok_iff : ofProjectPath (':' :: cs) = .ok d ↔
    IsProjectPath (':' :: cs) ∧ d = .project (.ofList (':' :: cs)) := by
  have tail : ((':' :: cs).splitOn ':').tail = cs.splitOn ':' := by
    rw [List.splitOn_cons_eq_if_modifyHead]
    simp
  rw [isProjectPath_cons_iff, ofProjectPath, tail]
  cases cs with
  | nil => simp [@eq_comm _ d]
  | cons c cs =>
    cases ((c :: cs).splitOn ':').any (·.isEmpty) with
    | true => simp
    | false => simp [@eq_comm _ d]

theorem ofLibraryParts_eq_ok_iff : ofLibraryParts cs = .ok d ↔
    ∃ p l v, IsPart '/' p ∧ IsPart '/' l ∧ IsPart '/' v ∧ p ++ '/' :: (l ++ '/' :: v) = cs ∧
      d = .library (.ofList p) (.ofList l) (.ofList v) := by
  constructor
  · intro h
    simp only [ofLibraryParts] at h
    split at h
    · cases h
    · rename_i filled
      obtain ⟨-, part, joined⟩ := splitOn_eq_parts_iff.1 ⟨rfl, Bool.eq_false_iff.2 filled⟩
      split at h
      · rename_i p l v e
        cases h
        rw [e] at part joined
        exact ⟨p, l, v, part p (by simp), part l (by simp), part v (by simp), by simpa using joined, rfl⟩
      · cases h
  · rintro ⟨p, l, v, hp, hl, hv, text, rfl⟩
    have part : ∀ s ∈ [p, l, v], IsPart '/' s := by simp [hp, hl, hv]
    have joined : ['/'].intercalate [p, l, v] = cs := by simpa using text
    obtain ⟨split, filled⟩ := splitOn_eq_parts_iff.2 ⟨List.cons_ne_nil p [l, v], part, joined⟩
    simp only [ofLibraryParts, split, filled, Bool.false_eq_true, if_false]

theorem spells_of_ofCoordinates (mark : ¬libraryMark <+: cs) (h : ofCoordinates cs = .ok d) :
    Spells cs d := by
  simp only [ofCoordinates] at h
  split at h
  · cases h
  · rename_i filled
    obtain ⟨-, part, joined⟩ := splitOn_eq_parts_iff.1 ⟨rfl, Bool.eq_false_iff.2 filled⟩
    -- A group `library` would have made up the mark together with the colon after it.
    have unmarked {g rest : List Char} (e : g ++ ':' :: rest = cs) : g ≠ "library".toList := by
      rintro rfl
      exact mark ⟨rest, by simpa [libraryMark_eq] using e⟩
    split at h
    · rename_i m e
      cases h
      rw [e] at part joined
      have one := Spells.named (part m (by simp))
      simpa [← joined] using one
    · rename_i g m e
      cases h
      rw [e] at part joined
      have text : g ++ ':' :: m = cs := by simpa using joined
      exact text ▸ .grouped (part g (by simp)) (unmarked text) (part m (by simp))
    · rename_i g m v e
      cases h
      rw [e] at part joined
      have text : g ++ ':' :: (m ++ ':' :: v) = cs := by simpa using joined
      exact text ▸ .versioned (part g (by simp)) (unmarked text) (part m (by simp)) (part v (by simp))
    · cases h

theorem ofTrimmed_mark (rest : List Char) : ofTrimmed (libraryMark ++ rest) = ofLibraryParts rest := by
  have nonempty : libraryMark ++ rest ≠ [] := by simp [libraryMark_eq]
  simp [ofTrimmed, nonempty]

theorem ofTrimmed_colon (rest : List Char) : ofTrimmed (':' :: rest) = ofProjectPath (':' :: rest) := by
  simp [ofTrimmed, libraryMark_eq]

theorem ofTrimmed_eq_ofCoordinates (nonempty : cs ≠ []) (mark : ¬libraryMark <+: cs)
    (head : cs.head? ≠ some ':') : ofTrimmed cs = ofCoordinates cs := by
  simp [ofTrimmed, nonempty, mark, head]

theorem unmarked_of_ne {g : List Char} (hg : IsPart ':' g) (other : g ≠ "library".toList)
    (rest : List Char) : ¬libraryMark <+: g ++ ':' :: rest := by
  rintro ⟨rest', e⟩
  -- Both readings of the text have a first segment, `library` and `g`.
  rw [libraryMark_eq, List.append_assoc] at e
  have segments := congrArg (List.splitOn ':') e
  rw [List.splitOn_append_cons_self_of_not_mem hg.2, List.singleton_append,
    List.splitOn_append_cons_self_of_not_mem (by decide)] at segments
  exact other (List.cons.inj segments).1.symm

theorem ofTrimmed_eq_of_parts {g : List Char} {more : List (List Char)}
    (part : ∀ s ∈ g :: more, IsPart ':' s) (unmarked : more = [] ∨ g ≠ "library".toList) :
    ofTrimmed ([':'].intercalate (g :: more)) = ofCoordinates ([':'].intercalate (g :: more)) := by
  have hg : IsPart ':' g := part g List.mem_cons_self
  obtain ⟨c, g', rfl⟩ := List.exists_cons_of_ne_nil hg.1
  have colon : c ≠ ':' := fun e => hg.2 (by simp [e])
  cases more with
  | nil =>
    rw [List.intercalate_singleton]
    refine ofTrimmed_eq_ofCoordinates hg.1 (fun ⟨rest, e⟩ => hg.2 ?_) (by simpa using colon)
    simp [← e, libraryMark_eq]
  | cons s more =>
    have other : c :: g' ≠ "library".toList := unmarked.resolve_left (List.cons_ne_nil s more)
    rw [List.intercalate_cons_cons, List.append_assoc, List.singleton_append]
    exact ofTrimmed_eq_ofCoordinates (by simp) (unmarked_of_ne hg other _) (by simpa using colon)

theorem ofTrimmed_parts {g : List Char} {more : List (List Char)}
    (part : ∀ s ∈ g :: more, IsPart ':' s) (unmarked : more = [] ∨ g ≠ "library".toList) :
    ofTrimmed ([':'].intercalate (g :: more)) = match more with
      | [] => .ok (.module "" (.ofList g) "")
      | [m] => .ok (.module (.ofList g) (.ofList m) "")
      | [m, v] => .ok (.module (.ofList g) (.ofList m) (.ofList v))
      | _ => .error .moduleParts := by
  obtain ⟨split, filled⟩ := splitOn_eq_parts_iff.2 ⟨List.cons_ne_nil g more, part, rfl⟩
  rw [ofTrimmed_eq_of_parts part unmarked]
  simp only [ofCoordinates, split, filled, Bool.false_eq_true, if_false]
  rcases more with _ | ⟨m, _ | ⟨v, _ | ⟨s, more⟩⟩⟩ <;> rfl

theorem ofTrimmed_of_spells (h : Spells cs d) : ofTrimmed cs = .ok d := by
  cases h with
  | named hm => simpa using ofTrimmed_parts (List.forall_mem_singleton.2 hm) (.inl rfl)
  | @grouped g m hg other hm =>
    have part : ∀ s ∈ [g, m], IsPart ':' s := by simp [hg, hm]
    simpa using ofTrimmed_parts part (.inr other)
  | @versioned g m v hg other hm hv =>
    have part : ∀ s ∈ [g, m, v], IsPart ':' s := by simp [hg, hm, hv]
    simpa using ofTrimmed_parts part (.inr other)
  | project hp =>
    cases cs with
    | nil => cases hp.head?
    | cons c rest =>
      cases hp.head?
      exact (ofTrimmed_colon rest).trans (ofProjectPath_eq_ok_iff.2 ⟨hp, rfl⟩)
  | library hp hl hv =>
    exact (ofTrimmed_mark _).trans (ofLibraryParts_eq_ok_iff.2 ⟨_, _, _, hp, hl, hv, rfl, rfl⟩)

theorem ofTrimmed_eq_ok_iff : ofTrimmed cs = .ok d ↔ Spells cs d := by
  refine ⟨fun h => ?_, ofTrimmed_of_spells⟩
  by_cases mark : libraryMark <+: cs
  · obtain ⟨rest, rfl⟩ := mark
    rw [ofTrimmed_mark] at h
    obtain ⟨p, l, v, hp, hl, hv, rfl, rfl⟩ := ofLibraryParts_eq_ok_iff.1 h
    exact .library hp hl hv
  · match cs with
    | [] => cases h
    | c :: rest =>
      by_cases colon : c = ':'
      · subst colon
        rw [ofTrimmed_colon] at h
        obtain ⟨path, rfl⟩ := ofProjectPath_eq_ok_iff.1 h
        exact .project path
      · have head : (c :: rest).head? ≠ some ':' := by simpa using colon
        rw [ofTrimmed_eq_ofCoordinates (List.cons_ne_nil c rest) mark head] at h
        exact spells_of_ofCoordinates mark h

end Reading

theorem parse_eq_ok_iff {s : String} {d : Dependency} :
    parse s = .ok d ↔ Spells (trim s.toList) d := by
  rw [parse, mapError_eq_ok, ofTrimmed_eq_ok_iff]

theorem parse_text_of_spells {cs : List Char} {d : Dependency} (h : Spells (trim cs) d) :
    parse d.text = .ok d := by
  rw [parse_eq_ok_iff, h.text, trim_trim]
  exact h

/-- A dependency is read from a notation if the notation stands for it, and is then recovered from
its own text, which is the notation without white space at its ends. Notations of one dependency
differ in this white space only. -/
theorem parse_inverts_text :
    (∀ s d, parse s = .ok d ↔ Spells (trim s.toList) d) ∧
    (∀ s d, parse s = .ok d → d.text.toList = trim s.toList ∧ parse d.text = .ok d) ∧
    ∀ s s' d d', parse s = .ok d → parse s' = .ok d' →
      (d = d' ↔ trim s.toList = trim s'.toList) := by
  refine ⟨fun _ _ => parse_eq_ok_iff, fun s d h => ?_, fun s s' d d' h h' => ?_⟩
  · have spells := parse_eq_ok_iff.1 h
    exact ⟨spells.text, parse_text_of_spells spells⟩
  · rw [parse_eq_ok_iff] at h h'
    constructor
    · rintro rfl
      rw [← h.text, ← h'.text]
    · intro same
      have text : parse d.text = parse d'.text := by
        rw [String.toList_injective (h.text.trans (same.trans h'.text.symm))]
      rw [parse_text_of_spells h, parse_text_of_spells h'] at text
      exact Except.ok.inj text

theorem parse_inverts_text_spaced :
    let d := Dependency.module "org.json" "Json" "1.2 beta"
    parse "\u3000org.json:Json:1.2 beta\n" = .ok d ∧ parse d.text = .ok d ∧
      trim "\u3000org.json:Json:1.2 beta\n".toList = trim d.text.toList := by
  intro d
  have read : parse "\u3000org.json:Json:1.2 beta\n" = .ok d := by decide +kernel
  obtain ⟨-, again⟩ := parse_inverts_text.2.1 _ d read
  exact ⟨read, again, (parse_inverts_text.2.2 _ _ d d read again).1 rfl⟩

/-- A notation that selects a component and no other one. -/
def Addresses (s : String) (id : ComponentId) : Prop :=
  ∃ d, parse s = .ok d ∧ ∀ other, d.selects other = true ↔ other = id

section Selects

variable {id : ComponentId}

theorem selects_module_iff {group name version : String} (hg : group ≠ "") (hv : version ≠ "") :
    (module group name version).selects id = true ↔ id = .module group name version := by
  cases id with
  | module g n v =>
    simp only [selects, hg, hv, beq_iff_eq, Bool.or_eq_true, Bool.and_eq_true, false_or,
      ComponentId.module.injEq]
    grind
  | project path => simp [selects]
  | libraryBinary projectPath library variant => simp [selects]
  | unknown kind displayName => simp [selects]

theorem selects_project_iff {path : String} :
    (project path).selects id = true ↔ id = .project path := by
  cases id <;> simp [selects, @eq_comm _ path]

theorem selects_library_iff {projectPath name variant : String} :
    (library projectPath name variant).selects id = true ↔
      id = .libraryBinary projectPath name variant := by
  cases id <;> simp [selects, @eq_comm _ projectPath, @eq_comm _ name, @eq_comm _ variant, and_assoc]

end Selects

theorem addresses_of_spells {s : String} {d : Dependency} {id : ComponentId} (h : Spells s.toList d)
    (start : startsBlank s.toList = false) (ending : endsBlank s.toList = false)
    (only : ∀ other, d.selects other = true ↔ other = id) : Addresses s id := by
  refine ⟨d, ?_, only⟩
  rwa [parse_eq_ok_iff, trim_eq_self start ending]

theorem not_addresses_module {s : String} (mark : libraryMark <+: trim s.toList)
    (group name version : String) : ¬Addresses s (.module group name version) := by
  rintro ⟨d, h, only⟩
  obtain ⟨rest, text⟩ := mark
  rw [parse_eq_ok_iff, ← text, ← ofTrimmed_eq_ok_iff, ofTrimmed_mark] at h
  obtain ⟨p, l, v, -, -, -, -, rfl⟩ := ofLibraryParts_eq_ok_iff.1 h
  cases (only _).2 rfl

theorem module_addressed_iff {group name version : String} (hg : IsPart ':' group.toList)
    (hm : IsPart ':' name.toList) (hv : IsPart ':' version.toList)
    (start : startsBlank group.toList = false) (ending : endsBlank version.toList = false) :
    Addresses (group ++ ":" ++ name ++ ":" ++ version) (.module group name version) ↔
      group ≠ "library" := by
  have text : (group ++ ":" ++ name ++ ":" ++ version).toList =
      group.toList ++ ':' :: (name.toList ++ ':' :: version.toList) := by simp
  have starts : startsBlank (group ++ ":" ++ name ++ ":" ++ version).toList = false := by
    rw [text, startsBlank_append hg.1, start]
  have ends : endsBlank (group ++ ":" ++ name ++ ":" ++ version).toList = false := by
    rw [String.toList_append, endsBlank_append _ hv.1, ending]
  constructor
  · rintro addressed rfl
    refine not_addresses_module ?_ _ _ _ addressed
    rw [trim_eq_self starts ends, text, libraryMark_eq]
    exact ⟨name.toList ++ ':' :: version.toList, by simp⟩
  · intro other
    have unmarked : group.toList ≠ "library".toList := fun e => other (String.toList_injective e)
    have spells := Spells.versioned hg unmarked hm hv
    rw [← text, String.ofList_toList, String.ofList_toList, String.ofList_toList] at spells
    have filled {s : String} (h : s.toList ≠ []) : s ≠ "" := by simpa using h
    exact addresses_of_spells spells starts ends fun _ =>
      selects_module_iff (filled hg.1) (filled hv.1)

theorem project_addressed {path : String} (h : IsProjectPath path.toList)
    (ending : endsBlank path.toList = false) : Addresses path (.project path) := by
  have starts : startsBlank path.toList = false := by
    rw [startsBlank, h.head?]
    rfl
  have spells := Spells.project h
  rw [String.ofList_toList] at spells
  exact addresses_of_spells spells starts ending fun _ => selects_project_iff

theorem library_addressed {projectPath name variant : String} (hp : IsPart '/' projectPath.toList)
    (hl : IsPart '/' name.toList) (hv : IsPart '/' variant.toList)
    (ending : endsBlank variant.toList = false) :
    Addresses ("library:" ++ projectPath ++ "/" ++ name ++ "/" ++ variant)
      (.libraryBinary projectPath name variant) := by
  have spells := Spells.library hp hl hv
  rw [← toList_text_library, String.ofList_toList, String.ofList_toList, String.ofList_toList] at spells
  rw [← text_library]
  refine addresses_of_spells spells ?_ ?_ fun _ => selects_library_iff
  · rw [toList_text_library, startsBlank_append (by simp [libraryMark_eq])]
    decide
  · rw [text_library, String.toList_append, endsBlank_append _ hv.1, ending]

/-- The notation of a component selects it and nothing else, if its fields can be told apart in it
and do not blend with the white space around it. The notation of a module does so exactly if its
group is not named `library`. -/
theorem component_addressed :
    (∀ group name version : String, (∀ s ∈ [group, name, version].map String.toList,
        IsPart ':' s ∧ startsBlank s = false ∧ endsBlank s = false) →
      (Addresses (group ++ ":" ++ name ++ ":" ++ version) (.module group name version) ↔
        group ≠ "library")) ∧
    (∀ path : String, IsProjectPath path.toList → endsBlank path.toList = false →
      Addresses path (.project path)) ∧
    ∀ projectPath name variant : String,
      (∀ s ∈ [projectPath, name, variant].map String.toList, IsPart '/' s) →
      endsBlank variant.toList = false →
      Addresses ("library:" ++ projectPath ++ "/" ++ name ++ "/" ++ variant)
        (.libraryBinary projectPath name variant) := by
  refine ⟨fun group name version fields => ?_, fun _ => project_addressed,
    fun projectPath name variant fields => ?_⟩
  · obtain ⟨⟨hg, start, -⟩, ⟨hm, -⟩, hv, -, ending⟩ := by simpa using fields
    exact module_addressed_iff hg hm hv start ending
  · obtain ⟨hp, hl, hv⟩ := by simpa using fields
    exact library_addressed hp hl hv

theorem component_addressed_slashed :
    Addresses "native/zlib:library:1 0" (.module "native/zlib" "library" "1 0") ∧
      Addresses ":libs:core" (.project ":libs:core") ∧
      Addresses "library::native/zlib/debug" (.libraryBinary ":native" "zlib" "debug") := by
  refine ⟨(component_addressed.1 "native/zlib" "library" "1 0" ?_).2 (by decide),
    component_addressed.2.1 ":libs:core" ?_ (by decide),
    component_addressed.2.2 ":native" "zlib" "debug" ?_ (by decide)⟩
  · decide
  · exact .below (List.cons_ne_nil "libs".toList ["core".toList]) (by decide)
  · decide

/-- The coordinates of a module in a group `library` are refused, proper as they are. -/
theorem library_group_unaddressed :
    (∀ s ∈ ["library", "zlib", "1.0"].map String.toList,
      IsPart ':' s ∧ startsBlank s = false ∧ endsBlank s = false) ∧
    parse "library:zlib:1.0" = .error (.invalidDependency "library:zlib:1.0"
      "expected library:<project>/<library>/<variant>") ∧
    ¬Addresses "library:zlib:1.0" (.module "library" "zlib" "1.0") := by
  have refused : parse "library:zlib:1.0" = .error (.invalidDependency "library:zlib:1.0"
      "expected library:<project>/<library>/<variant>") := by decide +kernel
  refine ⟨by decide, refused, ?_⟩
  rintro ⟨d, h, -⟩
  cases refused.symm.trans h

end NativeBuild.Dependency
