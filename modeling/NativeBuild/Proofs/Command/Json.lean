import NativeBuild.Command.Json
import NativeBuild.Message
import NativeBuild.Proofs.Scanner

namespace NativeBuild.Json

open Scanner Message

section Strings

variable {c : Char} {text rest : List Char}

def stringStep : Scanner (Option Char) := do
  let some c ← peek | giveUp
  if c == quote then return none
  else if c == '\\' then
    Scanner.char '\\'
    return some (← escapedChar)
  else return some (← satisfy (0x20 ≤ ·.toNat))

theorem string_eq : Message.string = (do
    Scanner.char quote
    let cs ← repeated stringStep
    Scanner.char quote
    return String.ofList cs) := rfl

theorem reads_stringStep_end : stringStep.Reads [] (quote :: rest) none :=
  reads_peek.look (reads_pure none)

theorem reads_stringStep_escaped (h : escapedChar.Reads text rest c) :
    stringStep.Reads ('\\' :: text) rest (some c) :=
  reads_peek.look ((reads_char '\\').bind (h.map some))

theorem reads_stringStep_plain (hq : c ≠ quote) (hb : c ≠ '\\') (hc : 0x20 ≤ c.toNat) :
    stringStep.Reads [c] rest (some c) := by
  refine reads_peek.look ?_
  change (if c == quote then _ else if c == '\\' then _ else _ : Scanner (Option Char)).Reads _ _ _
  rw [if_neg (by simpa using hq), if_neg (by simpa using hb)]
  exact (reads_satisfy (p := fun c => 0x20 ≤ c.toNat) (by simpa using hc)).map some

theorem codeUnit_digits : ∀ n < 0x20,
    let digits := List.replicate (4 - (Nat.toDigits 16 n).length) '0' ++ Nat.toDigits 16 n
    digits.length = 4 ∧ digits.all Text.isHexDigit = true ∧ Text.ofDigits 16 digits = n := by
  decide +kernel

theorem reads_codePoint (hc : c.toNat < 0x20) :
    codePoint.Reads (List.replicate (4 - (Nat.toDigits 16 c.toNat).length) '0' ++
      Nat.toDigits 16 c.toNat) rest c := by
  obtain ⟨four, hex, value⟩ := codeUnit_digits c.toNat hc
  have digits : (count Text.isHexDigit _).Reads _ rest _ :=
    reads_count (List.all_eq_true.1 hex)
  have unit := digits.map (Text.ofDigits 16)
  rw [four, value] at unit
  have low : (decide (0xd800 ≤ c.toNat) && decide (c.toNat < 0xdc00)) = false := by
    simp
    omega
  refine Reads.done (s := Message.codeUnit) unit ?_
  rw [low, if_neg Bool.false_ne_true, if_pos (Or.inl (by omega)), Char.ofNat_toNat]
  exact reads_pure c

theorem reads_stringStep_codeUnit (hc : c.toNat < 0x20) :
    stringStep.Reads (Json.codeUnit c) rest (some c) := by
  have read : escapedChar.Reads (['u'] ++ (List.replicate (4 - (Nat.toDigits 16 c.toNat).length)
      '0' ++ Nat.toDigits 16 c.toNat)) rest c := (reads_satisfy rfl).bind (reads_codePoint hc)
  exact reads_stringStep_escaped read

theorem reads_stringStep (c : Char) : stringStep.Reads (escape c) rest (some c) := by
  unfold escape
  split
  case h_8 _ hq hb _ _ _ _ _ =>
    split
    case isTrue control => exact reads_stringStep_codeUnit control
    case isFalse plain => exact reads_stringStep_plain hq hb (Nat.le_of_not_lt plain)
  all_goals
    refine reads_stringStep_escaped ?_
    exact (reads_satisfy rfl).done (reads_pure _)

theorem escape_ne_nil (c : Char) : escape c ≠ [] := by
  unfold escape
  split
  case h_8 =>
    split
    · simp [codeUnit]
    · simp
  all_goals simp

theorem reads_escapes (cs : List Char) :
    (repeated stringStep).Reads (cs.flatMap escape) (quote :: rest) cs := by
  have body : (repeated stringStep).Reads ((cs.map escape).flatten ++ []) (quote :: rest) cs := by
    apply reads_repeated
    case some_char => simp [escape_ne_nil]
    case reads =>
      rw [List.forall₂_map_left_iff, List.forall₂_same]
      exact fun c _ rest => reads_stringStep c
    case stops => exact reads_stringStep_end
    case left => exact List.cons_ne_nil quote rest
  rwa [List.append_nil] at body

theorem toList_quoted (s : String) :
    (quoted s).toList = [quote] ++ (s.toList.flatMap escape ++ [quote]) := by
  simp [quoted, quote]

theorem reads_quoted (s : String) : Message.string.Reads (quoted s).toList rest s := by
  have last : (do Scanner.char quote; return String.ofList s.toList : Scanner String).Reads [quote]
      rest s := by
    rw [String.ofList_toList]
    exact (reads_char quote).map fun _ => s
  rw [string_eq, toList_quoted]
  exact (reads_char quote).bind ((reads_escapes s.toList).bind last)

end Strings

section Items

variable {α : Type} {ws text rest : List Char} {a : α}

theorem reads_spaces (h : ∀ c ∈ ws, isSpace c = true) (stop : ∀ c ∈ rest.head?, isSpace c = false) :
    spaces.Reads ws rest () :=
  (reads_takeWhile h stop).map fun _ => ()

theorem isSpace_indentation (depth : Nat) : ∀ c ∈ (indentation depth).toList, isSpace c = true := by
  simp [indentation, isSpace]

def lineStart (depth : Nat) : List Char := '\n' :: (indentation depth).toList

theorem isSpace_lineStart (depth : Nat) : ∀ c ∈ lineStart depth, isSpace c = true :=
  List.forall_mem_cons.2 ⟨rfl, isSpace_indentation depth⟩

structure Item (item : Scanner α) (closing : Char) (text : List Char) (a : α) : Prop where
  reads : ∀ ws rest, (∀ c ∈ ws, isSpace c = true) → item.Reads (ws ++ text) rest a
  starts : ∃ c cs, text = c :: cs ∧ isSpace c = false ∧ closing ≠ c

def othersStep (item : Scanner α) : Scanner (Option α) := do
  spaces
  if ← tokenIf [','] then return some (← item) else return none

theorem items_eq (closing : Char) (item : Scanner α) : items closing item = (do
    spaces
    if ← tokenIf [closing] then return []
    let first ← item
    let others ← repeated (othersStep item)
    Scanner.char closing
    return first :: others) := rfl

theorem intercalate_cons (sep line : List Char) (lines : List (List Char)) :
    sep.intercalate (line :: lines) = line ++ lines.flatMap (sep ++ ·) := by
  induction lines generalizing line with
  | nil => simp
  | cons next lines ih =>
    rw [List.intercalate_cons_cons, ih, List.flatMap_cons]
    simp only [List.append_assoc]

def body (depth : Nat) (closing : Char) : List (List Char) → List Char
  | [] => [closing]
  | line :: lines =>
    lineStart (depth + 1) ++ (line ++ (lines.flatMap (fun l => ',' :: lineStart (depth + 1) ++ l) ++
      lineStart depth ++ [closing]))

theorem toList_bracketed (depth : Nat) (opening : String) {closing : String} {c : Char}
    (h : closing.toList = [c]) (lines : List String) :
    (bracketed depth opening closing lines).toList =
      opening.toList ++ body depth c (lines.map (·.toList)) := by
  cases lines with
  | nil => simp [bracketed, body, h]
  | cons line lines =>
    simp [bracketed, body, h, String.toList_intercalate, intercalate_cons, List.flatMap_map,
      lineStart]

theorem reads_othersStep {item : Scanner α} {closing : Char} (depth : Nat)
    (h : Item item closing text a) :
    (othersStep item).Reads (',' :: lineStart depth ++ text) rest (some a) := by
  have skip : spaces.Reads [] ([','] ++ (lineStart depth ++ text) ++ rest) () :=
    reads_spaces (by simp) (by simp [isSpace])
  have next : item.Reads (lineStart depth ++ text) rest a := h.reads _ _ (isSpace_lineStart depth)
  exact skip.look ((reads_tokenIf [',']).bind (next.map some))

theorem reads_othersStep_end (item : Scanner α) {closing : Char} (depth : Nat)
    (space : isSpace closing = false) (comma : ',' ≠ closing) :
    (othersStep item).Reads (lineStart depth) (closing :: rest) none := by
  have skip : spaces.Reads (lineStart depth) (closing :: rest) () :=
    reads_spaces (isSpace_lineStart depth) (by simpa using space)
  have no : (tokenIf [',']).Reads [] ([] ++ closing :: rest) false := reads_tokenIf_ne comma
  refine skip.done (no.look ?_)
  exact reads_pure none

theorem reads_others {item : Scanner α} {closing : Char} (space : isSpace closing = false)
    (comma : ',' ≠ closing) (depth : Nat) {texts : List (List Char)} {values : List α}
    (h : List.Forall₂ (Item item closing) texts values) : (repeated (othersStep item)).Reads
      (texts.flatMap (fun t => ',' :: lineStart (depth + 1) ++ t) ++ lineStart depth)
      (closing :: rest) values := by
  rw [List.flatMap_def]
  apply reads_repeated
  case some_char =>
    simp only [List.forall_mem_map]
    exact fun _ _ => List.cons_ne_nil _ _
  case reads =>
    rw [List.forall₂_map_left_iff]
    exact h.imp fun _ _ hi rest => reads_othersStep (depth + 1) hi
  case stops => exact reads_othersStep_end item depth space comma
  case left => exact List.append_ne_nil_of_right_ne_nil _ (List.cons_ne_nil closing rest)

theorem reads_items {item : Scanner α} {closing : Char} (space : isSpace closing = false)
    (comma : ',' ≠ closing) (depth : Nat) {texts : List (List Char)} {values : List α}
    (h : List.Forall₂ (Item item closing) texts values) :
    (items closing item).Reads (body depth closing texts) rest values := by
  rw [items_eq]
  cases h with
  | nil =>
    have skip : spaces.Reads [] ([closing] ++ rest) () :=
      reads_spaces (by simp) (by simpa using space)
    exact skip.look ((reads_tokenIf [closing]).done (reads_pure []))
  | @cons text a texts values first others =>
    have more : (repeated (othersStep item)).Reads _ (closing :: rest) values :=
      reads_others space comma depth others
    rw [body]
    -- From here on it does not matter how the other items are written.
    generalize texts.flatMap (fun t => ',' :: lineStart (depth + 1) ++ t) ++ lineStart depth = tail
      at more ⊢
    obtain ⟨c, cs, starts, plain, ne⟩ := first.starts
    have skip : spaces.Reads (lineStart (depth + 1)) (text ++ (tail ++ [closing]) ++ rest) () :=
      reads_spaces (isSpace_lineStart _) (by simpa [starts] using plain)
    have no : (tokenIf [closing]).Reads [] (text ++ (tail ++ [closing]) ++ rest) false := by
      rw [starts]
      exact reads_tokenIf_ne ne
    have one : item.Reads text (tail ++ [closing] ++ rest) a :=
      first.reads [] _ (List.forall_mem_nil _)
    have last : (do Scanner.char closing; return a :: values : Scanner (List α)).Reads [closing]
        rest (a :: values) := (reads_char closing).map fun _ => a :: values
    exact skip.bind (no.look (one.bind (more.bind last)))

end Items

section Values

variable {ws rest : List Char} {n : Nat}

mutual

def document : Json → Document
  | .string value => .scalar (.string value) none
  | .list items => .list (documents items) none
  | .object entries => table (fields entries)

def documents : List Json → List Document
  | [] => []
  | item :: rest => item.document :: documents rest

def fields : List (String × Json) → List (String × Document)
  | [] => []
  | (key, item) :: rest => (key, item.document) :: fields rest

end

mutual

def nesting : Json → Nat
  | .string _ => 0
  | .list items => nestingOfItems items + 1
  | .object entries => nestingOfEntries entries + 1

def nestingOfItems : List Json → Nat
  | [] => 0
  | item :: rest => max item.nesting (nestingOfItems rest)

def nestingOfEntries : List (String × Json) → Nat
  | [] => 0
  | (_, item) :: rest => max item.nesting (nestingOfEntries rest)

end

@[simp] theorem documents_eq (items : List Json) : documents items = items.map document := by
  induction items with
  | nil => rfl
  | cons item items ih => rw [documents, ih, List.map_cons]

theorem nestingOfItems_le {items : List Json} (h : ∀ item ∈ items, item.nesting ≤ n) :
    nestingOfItems items ≤ n := by
  induction items with
  | nil => exact Nat.zero_le n
  | cons item items ih =>
    rw [List.forall_mem_cons] at h
    exact Nat.max_le.2 ⟨h.1, ih h.2⟩

theorem reads_scalar_string (v : String) : scalar.Reads (quoted v).toList rest (.string v) := by
  have text : scalar.Reads (quote :: (v.toList.flatMap escape ++ [quote])) rest (.string v) := by
    refine reads_peek.look ?_
    have read : Message.string.Reads _ rest v := reads_quoted v
    rw [toList_quoted] at read
    exact read.map Scalar.string
  rwa [toList_quoted]

theorem reads_value_string (h : ∀ c ∈ ws, isSpace c = true) (v : String) :
    (value n).Reads (ws ++ (quoted v).toList) rest (.scalar (.string v) none) := by
  have starts : (quoted v).toList = quote :: (v.toList.flatMap escape ++ [quote]) := toList_quoted v
  have skip : spaces.Reads ws ((quoted v).toList ++ rest) () := by
    apply reads_spaces h
    simp [starts, quote, isSpace]
  have read : (do return .scalar (← scalar) none : Scanner Document).Reads (quoted v).toList rest
      (.scalar (.string v) none) := (reads_scalar_string v).map (Document.scalar · none)
  cases n with
  | zero => exact skip.bind read
  | succ n =>
    have no_list : (tokenIf ['[']).Reads [] ((quoted v).toList ++ rest) false := by
      rw [starts]
      exact reads_tokenIf_ne (by decide)
    have no_object : (tokenIf ['\x7b']).Reads [] ((quoted v).toList ++ rest) false := by
      rw [starts]
      exact reads_tokenIf_ne (by decide)
    exact skip.bind (no_list.look (no_object.look read))

theorem reads_value_list (h : ∀ c ∈ ws, isSpace c = true) (depth : Nat) {texts : List (List Char)}
    {docs : List Document} (items : List.Forall₂ (Item (value n) ']') texts docs) :
    (value (n + 1)).Reads (ws ++ (['['] ++ body depth ']' texts)) rest (.list docs none) := by
  have skip : spaces.Reads ws (['['] ++ body depth ']' texts ++ rest) () :=
    reads_spaces h (by simp [isSpace])
  have listed : (Message.items ']' (value n)).Reads (body depth ']' texts) rest docs :=
    reads_items rfl (by decide) depth items
  have read := listed.map (Document.list · none)
  exact skip.bind ((reads_tokenIf ['[']).bind read)

theorem reads_value_object (h : ∀ c ∈ ws, isSpace c = true) (depth : Nat)
    {texts : List (List Char)} {entries : List (String × Document)}
    (items : List.Forall₂ (Item (entry (value n)) '\x7d') texts entries) :
    (value (n + 1)).Reads (ws ++ (['\x7b'] ++ body depth '\x7d' texts)) rest (table entries) := by
  have skip : spaces.Reads ws (['\x7b'] ++ body depth '\x7d' texts ++ rest) () :=
    reads_spaces h (by simp [isSpace])
  have no_list : (tokenIf ['[']).Reads [] (['\x7b'] ++ body depth '\x7d' texts ++ rest) false :=
    reads_tokenIf_ne (by decide)
  have listed : (Message.items '\x7d' (entry (value n))).Reads (body depth '\x7d' texts) rest entries :=
    reads_items rfl (by decide) depth items
  have read := listed.map table
  exact skip.bind (no_list.look ((reads_tokenIf ['\x7b']).bind read))

theorem pretty_starts (depth : Nat) (j : Json) : ∃ c cs,
    (j.pretty depth).toList = c :: cs ∧ isSpace c = false ∧ ']' ≠ c := by
  cases j with
  | string v => exact ⟨quote, _, toList_quoted v, by decide⟩
  | list items => exact ⟨'[', _, toList_bracketed depth "[" rfl _, by decide⟩
  | object entries => exact ⟨'\x7b', _, toList_bracketed depth "\x7b" rfl _, by decide⟩

theorem item_entry {depth : Nat} (key : String) {j : Json}
    (h : ∀ rest, (value n).Reads ([' '] ++ (j.pretty depth).toList) rest j.document) :
    Item (entry (value n)) '\x7d' (quoted key ++ ": " ++ j.pretty depth).toList
      (key, j.document) where
  reads ws rest hws := by
    have starts : (quoted key).toList = quote :: (key.toList.flatMap escape ++ [quote]) :=
      toList_quoted key
    have text : (quoted key ++ ": " ++ j.pretty depth).toList =
        (quoted key).toList ++ ([':'] ++ ([' '] ++ (j.pretty depth).toList)) := by simp
    rw [text]
    generalize [' '] ++ (j.pretty depth).toList = tail at h ⊢
    have skip : spaces.Reads ws ((quoted key).toList ++ ([':'] ++ tail) ++ rest) () := by
      apply reads_spaces hws
      simp [starts, quote, isSpace]
    have skip_none : spaces.Reads [] ([':'] ++ tail ++ rest) () :=
      reads_spaces (List.forall_mem_nil _) (by simp [isSpace])
    have read : (do Scanner.char ':'; return (key, ← value n) : Scanner (String × Document)).Reads
        ([':'] ++ tail) rest (key, j.document) := (reads_char ':').bind ((h rest).map (Prod.mk key))
    exact skip.bind ((reads_quoted key).bind (skip_none.look read))
  starts := by simp [toList_quoted, quote, isSpace]

mutual

theorem reads_pretty : ∀ (j : Json) {n : Nat}, j.nesting ≤ n →
    ∀ (depth : Nat) (ws rest : List Char), (∀ c ∈ ws, isSpace c = true) →
      (value n).Reads (ws ++ (j.pretty depth).toList) rest j.document
  | .string v, _, _, _, _, _, h => reads_value_string h v
  | .list items, n + 1, deep, depth, ws, rest, h => by
    have inner := items_legible items (Nat.le_of_succ_le_succ deep) (depth + 1)
    rw [pretty, toList_bracketed depth "[" rfl]
    exact reads_value_list h depth inner
  | .object entries, n + 1, deep, depth, ws, rest, h => by
    have inner := entries_legible entries (Nat.le_of_succ_le_succ deep) (depth + 1)
    rw [pretty, toList_bracketed depth "\x7b" rfl]
    exact reads_value_object h depth inner

theorem items_legible : ∀ (items : List Json) {n : Nat}, nestingOfItems items ≤ n →
    ∀ depth : Nat, List.Forall₂ (Item (value n) ']') ((prettyItems depth items).map (·.toList))
      (documents items)
  | [], _, _, _ => .nil
  | item :: items, _, deep, depth => by
    have first := reads_pretty item (Nat.le_trans (Nat.le_max_left _ _) deep) depth
    have others := items_legible items (Nat.le_trans (Nat.le_max_right _ _) deep) depth
    exact .cons ⟨first, pretty_starts depth item⟩ others

theorem entries_legible : ∀ (entries : List (String × Json)) {n : Nat},
    nestingOfEntries entries ≤ n → ∀ depth : Nat, List.Forall₂ (Item (entry (value n)) '\x7d')
      ((prettyEntries depth entries).map (·.toList)) (fields entries)
  | [], _, _, _ => .nil
  | (key, item) :: entries, _, deep, depth => by
    have first := reads_pretty item (Nat.le_trans (Nat.le_max_left _ _) deep) depth [' ']
    have others := entries_legible entries (Nat.le_trans (Nat.le_max_right _ _) deep) depth
    exact .cons (item_entry key fun rest => first rest (List.forall_mem_singleton.2 rfl)) others

end

/-- A value that is written on lines of its own is read as what it is. -/
theorem parse?_pretty (j : Json) (h : j.nesting ≤ maxDepth) :
    parse? (j.pretty 0 ++ "\n") = some j.document := by
  have read : (value maxDepth).Reads (j.pretty 0).toList (['\n'] ++ []) j.document :=
    reads_pretty j h 0 [] _ (List.forall_mem_nil _)
  have newline : (do spaces; return j.document : Scanner Document).Reads ['\n'] [] j.document :=
    (reads_spaces (List.forall_mem_singleton.2 rfl) (by simp)).map fun _ => j.document
  have both : (do let d ← value maxDepth; spaces; return d : Scanner Document).Reads
      ((j.pretty 0).toList ++ ['\n']) [] j.document := read.bind newline
  obtain ⟨offset, whole⟩ := both 0
  have text : (j.pretty 0 ++ "\n").toList = (j.pretty 0).toList ++ ['\n'] ++ [] := by simp
  rw [parse?, text]
  change Option.bind _ _ = _
  rw [whole]
  rfl

end Values

end NativeBuild.Json
