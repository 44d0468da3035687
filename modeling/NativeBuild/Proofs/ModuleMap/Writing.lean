import NativeBuild.ModuleMap.Store
import NativeBuild.Proofs.Files.Ways

namespace NativeBuild

open NativeBuild.Path FileTree

namespace ModuleMap

variable {map map' : ModuleMap} {out out' : Path} {t t' : FileTree} {place : Place}

section Asks

variable {σ : Type} [FileSystem (StateM σ)] {s : σ} {isDirectory : Path → Bool}
variable (asks : ∀ p, (FileSystem.isDirectory p : StateM σ Bool).run s = (isDirectory p, s))
include asks

theorem run_mapM_isDirectory (paths : List String) :
    (paths.mapM fun p => FileSystem.isDirectory ⟨p⟩ : StateM σ (List Bool)).run s =
      (paths.map fun p => isDirectory ⟨p⟩, s) := by
  induction paths with
  | nil => rfl
  | cons p paths ih =>
    rw [List.mapM_cons, run_bind_of_run (asks ⟨p⟩), run_bind_of_run ih]
    rfl

theorem run_renderNow (map : ModuleMap) :
    (map.renderNow : StateM σ _).run s = (map.render isDirectory, s) := by
  have lines : List.zipWith headerLine (map.headers.map fun h => isDirectory ⟨h⟩) map.headers =
      map.headers.map fun h => headerLine (isDirectory ⟨h⟩) h := by
    rw [List.zipWith_map_left, List.zipWith_self]
  rw [renderNow, run_bind_of_run (run_mapM_isDirectory asks map.headers), render, ← lines]
  rfl

end Asks

theorem run_write_of_not_plain (h : Path.isPlainName map.name = false) (out : Path) (t : FileTree) :
    (map.write out : StateM FileTree _).run t = (.error (.notPlainName map.name), t) := by
  rw [write, h]
  rfl

theorem run_put (path : Path) (text : String) (t : FileTree) :
    (write.put path text : StateM FileTree _).run t = match t.writeText path text with
      | .ok t' => (.ok path, t')
      | .error e => (.error (.file e), t) := by
  have writes : (FileSystem.writeText path text : StateM FileTree _).run t =
    attempt (·.writeText path text) t := rfl
  cases h : t.writeText path text with
  | ok t' =>
    rw [attempt, h] at writes
    rw [write.put, run_bind_of_run writes]
    rfl
  | error e =>
    rw [attempt, h] at writes
    rw [write.put, run_bind_of_run writes]
    rfl

theorem run_write (h : Path.isPlainName map.name = true) (out : Path) (t : FileTree) :
    (map.write out : StateM FileTree _).run t =
      match (FileSystem.ensureDirectories (map.directory out) : StateM FileTree _).run t with
      | (.error e, made) => (.error (.file e), made)
      | (.ok (), made) => match made.update (map.file out) (map.render made.isDirectory) with
        | .ok t' => (.ok (map.file out), t')
        | .error e => (.error (.file e), made) := by
  rw [write, h]
  cases hm : (FileSystem.ensureDirectories (map.directory out) : StateM FileTree _).run t with
  | mk r made =>
    cases r with
    | error e => exact run_bind_of_run hm
    | ok =>
      -- The text is made and compared when the directories are there already.
      have reads : (FileSystem.readText (map.file out) : StateM FileTree _).run made =
        (made.readText (map.file out), made) := rfl
      refine (run_bind_of_run hm).trans ?_
      refine (run_bind_of_run (run_renderNow (fun _ => rfl) map)).trans ?_
      refine (run_bind_of_run reads).trans ?_
      cases hr : made.readText (map.file out) with
      | error e => simp only [update, hr, reduceCtorEq, if_false, run_put]
      | ok old =>
        by_cases same : old = map.render made.isDirectory
        · simp only [update, hr, same, if_true]
          rfl
        · simp only [update, hr, same, Except.ok.injEq, if_false, run_put]

inductive Written (map : ModuleMap) (out : Path) (t : FileTree) :
    Except WriteError Path → FileTree → Prop
  | refused (rejected : Path.isPlainName map.name = false) :
      Written map out t (.error (.notPlainName map.name)) t
  | failed {e : FileError} {made : FileTree} (plain : Path.isPlainName map.name = true)
      (grown : Grown (map.directory out).ancestors t made) : Written map out t (.error (.file e)) made
  | done {made t' : FileTree} (plain : Path.isPlainName map.name = true)
      (grown : Grown (map.directory out).ancestors t made)
      (stored : Stored (map.file out) (map.render made.isDirectory) made t') :
      Written map out t (.ok (map.file out)) t'

theorem written (map : ModuleMap) (out : Path) (t : FileTree) :
    Written map out t ((map.write out : StateM FileTree _).run t).1
      ((map.write out : StateM FileTree _).run t).2 := by
  cases hn : Path.isPlainName map.name with
  | false =>
    rw [run_write_of_not_plain hn]
    exact .refused hn
  | true =>
    have grown := Grows.ensureDirectories (map.directory out) t
    rw [run_write hn]
    cases hm : (FileSystem.ensureDirectories (map.directory out) : StateM FileTree _).run t with
    | mk r made =>
      rw [hm] at grown
      cases r with
      | error e => exact .failed hn grown
      | ok =>
        cases hu : made.update (map.file out) (map.render made.isDirectory) with
        | error e =>
          simp only [hu]
          exact .failed hn grown
        | ok t' =>
          simp only [hu]
          exact .done hn grown (stored_update hu)

namespace Written

variable {result : Except WriteError Path} (h : Written map out t result t')
include h

theorem refusal {name : String} (hr : result = .error (.notPlainName name)) :
    Path.isPlainName map.name = false ∧ name = map.name ∧ t' = t := by
  cases h with
  | refused rejected =>
    cases hr
    exact ⟨rejected, rfl, rfl⟩
  | failed => cases hr
  | done => cases hr

theorem eq_refused (rejected : Path.isPlainName map.name = false) :
    result = .error (.notPlainName map.name) := by
  cases h with
  | refused => rfl
  | failed plain => cases plain.symm.trans rejected
  | done plain => cases plain.symm.trans rejected

theorem readText {path : Path} (hr : result = .ok path) :
    path = map.file out ∧ t'.readText path = .ok (map.render t'.isDirectory) := by
  cases h with
  | refused => cases hr
  | failed => cases hr
  | done _ _ stored =>
    cases hr
    rw [stored.isDirectory]
    exact ⟨rfl, stored.readText⟩

theorem confined : Confined (map.directory out).ancestors (map.file out) t t' := by
  cases h with
  | refused => exact (Grown.refl _ t).confined _
  | failed _ grown => exact grown.confined _
  | done _ grown stored => exact grown.confined_of_stored stored

theorem grounded (hg : t.Grounded) : t'.Grounded := by
  cases h with
  | refused => exact hg
  | failed _ grown => exact grown.keeps.grounded hg
  | done _ grown stored => exact stored.keeps.grounded (grown.keeps.grounded hg)

end Written

theorem spelled_fileName : (Step.name fileName).Spelled := by decide

section Place

variable (h : Path.isPlainName map.name = true)
include h

theorem place_file (hl : t.locate (map.file out) = .ok place) :
    ∃ above, t.walk? (t.origin out) out.trail = some above ∧
      above ++ [map.name, fileName] = place := by
  have named := (isPlainName_iff_spelled.1 h).1
  obtain ⟨-, hf⟩ := (locate_child spelled_fileName).1 hl
  obtain ⟨dir, hd, -, -, rfl⟩ := (walk?_child spelled_fileName).1 hf
  obtain ⟨above, ha, -, -, rfl⟩ := (walk?_child named).1 hd
  exact ⟨above, ha, List.append_cons above map.name [fileName]⟩

theorem place_file_ne {s : FileTree} (h' : Path.isPlainName map'.name = true)
    (names : map'.name ≠ map.name) (hl : t.locate (map.file out) = .ok place) :
    s.locate (map'.file out') ≠ .ok place := by
  intro hl'
  obtain ⟨above, -, rfl⟩ := place_file h hl
  obtain ⟨above', -, same⟩ := place_file h' hl'
  have last := (List.append_inj' same rfl).2
  exact names (List.cons.inj last).1

end Place

/-- Nothing is in the way of a map: neither of its directory nor of its file. -/
structure CanWrite (map : ModuleMap) (out : Path) (t : FileTree) : Prop where
  plain : Path.isPlainName map.name = true
  short : (map.file out).text.utf8ByteSize < maxPathSize
  clear : Clear t (map.directory out)
  apart : t.dest (map.file out) ∉ t.way out
  free : t.entry? (t.dest (map.file out)) ≠ some .directory

section Places

variable (h : Path.isPlainName map.name = true)
include h

theorem dest_file (out : Path) (t : FileTree) :
    t.dest (map.file out) = t.dest out ++ [map.name, fileName] := by
  have named := (isPlainName_iff_spelled.1 h).1
  rw [file, dest_child spelled_fileName, directory, dest_child named, List.append_assoc]
  rfl

theorem way_directory (out : Path) (t : FileTree) :
    t.way (map.directory out) = t.way out ++ [t.dest out ++ [map.name]] :=
  way_child (isPlainName_iff_spelled.1 h).1 t out

theorem way_out_subset (out : Path) (t : FileTree) : t.way out ⊆ t.way (map.directory out) := by
  rw [way_directory h]
  exact List.subset_append_left _ _

theorem clear_directory_iff : Clear t (map.directory out) ↔ Clear t out ∧
    isEntryName map.name = true ∧ ∀ text, t.entry? (t.dest out ++ [map.name]) ≠ some (.file text) :=
  clear_child_iff (isPlainName_iff_spelled.1 h).1

theorem text_directory_ne (out : Path) : (map.directory out).text ≠ "" :=
  text_child_ne (spelled_name_iff.1 (isPlainName_iff_spelled.1 h).1).1 out

theorem not_endsIdle_directory (out : Path) : (map.directory out).endsIdle = false :=
  @not_endsIdle_child (.name map.name) (isPlainName_iff_spelled.1 h).1 out

variable (h' : Path.isPlainName map'.name = true)
include h'

theorem dest_file_notMem_way (apart : t.dest (map.file out) ∉ t.way out) :
    t.dest (map.file out) ∉ t.way (map'.directory out) := by
  rw [way_directory h', List.mem_append, not_or, List.mem_singleton]
  refine ⟨apart, fun same => ?_⟩
  rw [dest_file h] at same
  simp at same

theorem dest_file_ne_of_name (names : map.name ≠ map'.name) (out : Path) (t : FileTree) :
    t.dest (map.file out) ≠ t.dest (map'.file out) := by
  intro same
  rw [dest_file h, dest_file h', List.append_cancel_left_eq] at same
  exact names (List.cons.inj same).1

end Places

theorem size_directory_le (map : ModuleMap) (out : Path) :
    (map.directory out).text.utf8ByteSize ≤ (map.file out).text.utf8ByteSize := by
  have relative : isAbsolute ⟨fileName⟩ = false := spelled_fileName.isAbsolute_label
  exact Nat.le_trans (Nat.le_add_right _ _) (size_join relative).1

namespace CanWrite

variable (h : CanWrite map out t)
include h

theorem dest_file_notMem : t.dest (map.file out) ∉ t.way (map.directory out) :=
  dest_file_notMem_way h.plain h.plain h.apart

section There

variable (home : t'.workingPlace = t.workingPlace)
variable (way : ∀ mid ∈ t.way (map.directory out), t'.entry? mid = some .directory)
include home way

theorem isDirectory_directory : t'.isDirectory (map.directory out) = true := by
  rw [isDirectory_iff_way, way_eq home]
  exact ⟨⟨text_directory_ne h.plain out, Nat.lt_of_le_of_lt (size_directory_le map out) h.short⟩,
    h.clear.names, way⟩

theorem locate_file : t'.locate (map.file out) = .ok (t.dest (map.file out)) := by
  have below : isEntryName fileName = true := by decide
  obtain ⟨place, hl, hd⟩ := lookup_eq_ok_iff.1 (isDirectory_iff.1 (h.isDirectory_directory home way))
  have hw := (locate_eq_ok_iff.1 hl).2.1
  have walk := (walk?_child spelled_fileName).2 ⟨place, hw, hd, below, rfl⟩
  have reached : t.dest (map.file out) = place ++ [fileName] := by
    rw [← dest_eq home]
    exact reach_of_walk? walk
  rw [reached]
  exact (locate_child spelled_fileName).2 ⟨h.short, walk⟩

end There

theorem write : ∃ t', (map.write out : StateM FileTree _).run t = (.ok (map.file out), t') := by
  have nonempty := text_directory_ne h.plain out
  have short := Nat.lt_of_le_of_lt (size_directory_le map out) h.short
  obtain ⟨made, run⟩ :=
    (ensureDirectories_iff nonempty (not_endsIdle_directory h.plain out)).2 ⟨short, h.clear⟩
  have built := made_of_ensureDirectories nonempty run
  have there : made.entry? (t.dest (map.file out)) ≠ some .directory := by
    rw [built.frame _ h.dest_file_notMem]
    exact h.free
  obtain ⟨t', hu⟩ :=
    exists_update (map.render made.isDirectory) (h.locate_file built.home built.way) there
  refine ⟨t', ?_⟩
  rw [run_write h.plain, run]
  simp only [hu]

end CanWrite

/-- The output directory is there, and neither a name is too long nor anything in the way of the
directory of a map or the file in it. -/
structure HasRoom (map : ModuleMap) (out : Path) (t : FileTree) : Prop where
  name : isEntryName map.name = true
  short : (map.file out).text.utf8ByteSize < maxPathSize
  place : ∃ above, t.walk? (t.origin out) out.trail = some above ∧
    t.entry? above = some .directory ∧
      (t.entry? (above ++ [map.name]) = none ∨ t.entry? (above ++ [map.name]) = some .directory) ∧
        t.entry? (above ++ [map.name, fileName]) ≠ some .directory

theorem write_of_room (h : Path.isPlainName map.name = true) (room : HasRoom map out t) :
    ((map.write out : StateM FileTree _).run t).1 = .ok (map.file out) := by
  obtain ⟨above, walk, there, directory, file⟩ := room.place
  obtain rfl : t.dest out = above := reach_of_walk? walk
  obtain ⟨names, way⟩ := walk?_directory_iff.1 ⟨walk, there⟩
  have clear : Clear t out := by
    refine ⟨names, way _ (mem_way_start _ _), fun mid hm text he => ?_⟩
    cases (way mid hm).symm.trans he
  have can : CanWrite map out t := by
    refine ⟨h, room.short, (clear_directory_iff h).2 ⟨clear, room.name, fun text he => ?_⟩, ?_, ?_⟩
    · rcases directory with free | there
      · cases he.symm.trans free
      · cases he.symm.trans there
    · rw [dest_file h]
      exact fun on_way => file (way _ on_way)
    · rw [dest_file h]
      exact file
  obtain ⟨t', run⟩ := can.write
  rw [run]

/-- A write turns down exactly the names that are no directory names by themselves, and then changes
nothing. Otherwise, even if it fails, it changes no file but that of the map and makes no
directories but the one of the map and those on the way to it. If it succeeds, as it does where
there is room for the map, the file has the text of the map. The file stands below the output
directory, and a map of another name has another file. -/
theorem write_confined (map : ModuleMap) (out : Path) (t : FileTree) :
    let result := ((map.write out : StateM FileTree _).run t).1
    let t' := ((map.write out : StateM FileTree _).run t).2
    let refused (name : String) :=
      name = "" ∨ name = "." ∨ name = ".." ∨ '/' ∈ name.toList ∨ '\\' ∈ name.toList
    ((∃ name, result = .error (.notPlainName name)) ↔ refused map.name) ∧
      (∀ name, result = .error (.notPlainName name) →
        name = map.name ∧ (WriteError.notPlainName name).isInvalidInput = true ∧ t' = t) ∧
      Confined (map.directory out).ancestors (map.file out) t t' ∧
      (∀ path, result = .ok path →
        path = map.file out ∧ t'.readText path = .ok (map.render t'.isDirectory)) ∧
      (¬refused map.name → HasRoom map out t → result = .ok (map.file out)) ∧
      (¬refused map.name → ∀ place, t'.locate (map.file out) = .ok place →
        (∃ above, t'.walk? (t'.origin out) out.trail = some above ∧
          above ++ [map.name, fileName] = place) ∧
        ∀ (map' : ModuleMap) (out' : Path) (s : FileTree), ¬refused map'.name →
          map'.name ≠ map.name → s.locate (map'.file out') ≠ .ok place) := by
  intro result t' refused
  have ends : Written map out t result t' := written map out t
  have plain {name : String} : Path.isPlainName name = true ↔ ¬refused name := by
    simp only [isPlainName_iff, refused, not_or]
  refine ⟨⟨?_, ?_⟩, ?_, ends.confined, fun path => ends.readText, ?_, ?_⟩
  · rintro ⟨name, hr⟩
    have rejected := (ends.refusal hr).1
    by_contra accepted
    simp [plain.2 accepted] at rejected
  · intro hr
    have rejected : Path.isPlainName map.name = false := by
      rw [Bool.eq_false_iff, ne_eq, plain, not_not]
      exact hr
    exact ⟨_, ends.eq_refused rejected⟩
  · intro name hr
    obtain ⟨-, same, still⟩ := ends.refusal hr
    exact ⟨same, rfl, still⟩
  · exact fun accepted room => write_of_room (plain.2 accepted) room
  · intro accepted place hl
    refine ⟨place_file (plain.2 accepted) hl, fun map' out' s accepted' names => ?_⟩
    exact place_file_ne (plain.2 accepted) (plain.2 accepted') names hl

def jsonMap : ModuleMap :=
  ⟨"Json", ["/w"]⟩

theorem write_confined_fresh :
    let t := FileTree.rooted ["w"]
    let out : Path := ⟨"./"⟩
    let t' := ((jsonMap.write out : StateM FileTree _).run t).2
    t'.readText (jsonMap.file out) = .ok (jsonMap.render t'.isDirectory) ∧
      Confined (jsonMap.directory out).ancestors (jsonMap.file out) t t' ∧
      ∃ name, (({ jsonMap with name := "../Json" }.write out : StateM FileTree _).run t).1 =
        .error (.notPlainName name) := by
  intro t out t'
  have file : (jsonMap.file out).text = "./Json/module.modulemap" := by decide
  have short : (jsonMap.file out).text.utf8ByteSize < maxPathSize := by
    rw [file]
    decide
  have room : HasRoom jsonMap out t := ⟨by decide, short, ["w"], by decide⟩
  obtain ⟨-, -, confined, written, succeeds, -⟩ := write_confined jsonMap out t
  obtain ⟨refused, -⟩ := write_confined { jsonMap with name := "../Json" } out t
  have done := succeeds (by decide) room
  exact ⟨(written _ done).2, confined, refused.2 (by decide)⟩

end ModuleMap

end NativeBuild
