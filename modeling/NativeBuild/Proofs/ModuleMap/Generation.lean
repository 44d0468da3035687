import NativeBuild.Command.Run
import NativeBuild.Files.Journal
import NativeBuild.Proofs.Dict
import NativeBuild.Proofs.Files.Ways
import NativeBuild.Proofs.ModuleMap.Writing

namespace NativeBuild

open NativeBuild.Path FileTree

namespace ModuleMap

variable {map map' : ModuleMap} {maps : List ModuleMap} {out : Path} {t t' t'' made : FileTree}

structure Settled (maps : List ModuleMap) (out : Path) (text : ModuleMap → String)
    (t t' : FileTree) : Prop where
  home : t'.workingPlace = t.workingPlace
  root : t'.entries.get? [] = t.entries.get? []
  file : ∀ map ∈ maps, t'.entry? (t.dest (map.file out)) = some (.file (text map))
  way : ∀ map ∈ maps, ∀ mid ∈ t.way (map.directory out), t'.entry? mid = some .directory
  frame : ∀ place, (∀ map ∈ maps, place ≠ t.dest (map.file out) ∧ place ∉ t.way (map.directory out)) →
    t'.entry? place = t.entry? place

section Write

variable {path : Path}
variable (h : (map.write out : StateM FileTree _).run t = (.ok path, t'))
include h

theorem written_of_write : Path.isPlainName map.name = true ∧ path = map.file out ∧
    ∃ made, (FileSystem.ensureDirectories (map.directory out) : StateM FileTree _).run t =
        (.ok (), made) ∧
      Stored (map.file out) (map.render made.isDirectory) made t' := by
  cases hn : Path.isPlainName map.name with
  | false =>
    rw [run_write_of_not_plain hn] at h
    cases h
  | true =>
    rw [run_write hn] at h
    cases hm : (FileSystem.ensureDirectories (map.directory out) : StateM FileTree _).run t with
    | mk r made =>
      rw [hm] at h
      cases r with
      | error e => cases h
      | ok =>
        cases hu : made.update (map.file out) (map.render made.isDirectory) with
        | error e =>
          simp only [hu] at h
          cases h
        | ok t' =>
          simp only [hu] at h
          cases h
          exact ⟨rfl, rfl, made, rfl, stored_update hu⟩

theorem canWrite_of_write : CanWrite map out t := by
  obtain ⟨plain, -, made, run, stored⟩ := written_of_write h
  have nonempty := text_directory_ne plain out
  have built := made_of_ensureDirectories nonempty run
  obtain ⟨place, hl, hd, -⟩ := stored.frame
  obtain ⟨shown, hw, -⟩ := locate_eq_ok_iff.1 hl
  obtain rfl : t.dest (map.file out) = place := by
    rw [← dest_eq built.home]
    exact reach_of_walk? hw
  have beside : t.dest (map.file out) ∉ t.way (map.directory out) := fun on_way =>
    hd (built.way _ on_way)
  refine ⟨plain, shown.2, clear_of_ensureDirectories nonempty run, ?_, ?_⟩
  · exact fun on_way => beside (way_out_subset plain out t on_way)
  · rw [← built.frame _ beside]
    exact hd

theorem settled_of_write : Settled [map] out (fun map => map.render t'.isDirectory) t t' := by
  have can := canWrite_of_write h
  obtain ⟨plain, -, made, run, stored⟩ := written_of_write h
  have built := made_of_ensureDirectories (text_directory_ne plain out) run
  obtain ⟨place, hl, hd, he, frame⟩ := stored.frame
  rw [can.locate_file built.home built.way, Except.ok.injEq] at hl
  subst hl
  refine ⟨stored.home.trans built.home, stored.root.trans built.root, ?_, ?_, ?_⟩
  · rw [List.forall_mem_singleton, stored.isDirectory]
    exact he
  · rw [List.forall_mem_singleton]
    exact fun mid hm => stored.keeps.directory mid (built.way mid hm)
  · intro place apart
    rw [List.forall_mem_singleton] at apart
    rw [frame place apart.1, built.frame place apart.2]

end Write

namespace Settled

variable {text : ModuleMap → String}

theorem congr {text' : ModuleMap → String} (h : Settled maps out text t t')
    (same : ∀ map ∈ maps, text map = text' map) : Settled maps out text' t t' where
  home := h.home
  root := h.root
  file map hm := by
    rw [← same map hm]
    exact h.file map hm
  way := h.way
  frame := h.frame

theorem of_perm {maps' : List ModuleMap} (h : Settled maps out text t t')
    (perm : maps'.Perm maps) : Settled maps' out text t t' where
  home := h.home
  root := h.root
  file map hm := h.file map (perm.mem_iff.1 hm)
  way map hm := h.way map (perm.mem_iff.1 hm)
  frame place apart := h.frame place fun map hm => apart map (perm.mem_iff.2 hm)

theorem unique (h : Settled maps out text t t') (h' : Settled maps out text t t'') : t' = t'' := by
  -- At each place there is the file of a map, a directory on the way to it, or what was there.
  have entry (place : Place) : t'.entry? place = t''.entry? place := by
    by_cases file : ∃ map ∈ maps, place = t.dest (map.file out)
    · obtain ⟨map, hm, rfl⟩ := file
      rw [h.file map hm, h'.file map hm]
    · by_cases way : ∃ map ∈ maps, place ∈ t.way (map.directory out)
      · obtain ⟨map, hm, hp⟩ := way
        rw [h.way map hm place hp, h'.way map hm place hp]
      · have apart : ∀ map ∈ maps, place ≠ t.dest (map.file out) ∧
            place ∉ t.way (map.directory out) :=
          fun map hm => ⟨fun e => file ⟨map, hm, e⟩, fun e => way ⟨map, hm, e⟩⟩
        rw [h.frame place apart, h'.frame place apart]
  have entries : t'.entries = t''.entries := by
    apply Dict.ext_get?
    intro place
    cases place with
    | nil => exact h.root.trans h'.root.symm
    | cons name rest => exact entry (name :: rest)
  have home : t'.workingPlace = t''.workingPlace := h.home.trans h'.home.symm
  cases t'
  cases t''
  congr

theorem nil (text : ModuleMap → String) (t : FileTree) : Settled [] out text t t where
  home := rfl
  root := rfl
  file map hm := by cases hm
  way map hm := by cases hm
  frame place _ := rfl

theorem keeps (h : Settled maps out text t t') (can : ∀ map ∈ maps, CanWrite map out t) :
    Keeps t t' where
  home := h.home
  directory place hd := by
    by_cases way : ∃ map ∈ maps, place ∈ t.way (map.directory out)
    · obtain ⟨map, hm, hp⟩ := way
      exact h.way map hm place hp
    · rw [h.frame place fun map hm => ⟨?_, fun e => way ⟨map, hm, e⟩⟩]
      · exact hd
      · rintro rfl
        exact (can map hm).free hd

theorem keeps_of_way {final : FileTree} (h : Settled maps out text t t') (keeps : Keeps t final)
    (way : ∀ map ∈ maps, ∀ mid ∈ t.way (map.directory out), final.entry? mid = some .directory) :
    Keeps t' final where
  home := keeps.home.trans h.home.symm
  directory place hd := by
    by_cases on_way : ∃ map ∈ maps, place ∈ t.way (map.directory out)
    · obtain ⟨map, hm, hp⟩ := on_way
      exact way map hm place hp
    · apply keeps.directory
      rw [← h.frame place fun map hm => ⟨?_, fun e => on_way ⟨map, hm, e⟩⟩]
      · exact hd
      · rintro rfl
        cases (h.file map hm).symm.trans hd

end Settled

theorem CanWrite.after {text : ModuleMap → String} (h : CanWrite map' out t)
    (can : CanWrite map out t) (names : map'.name ≠ map.name)
    (settled : Settled [map] out text t t') : CanWrite map' out t' := by
  have keeps := settled.keeps (by simpa using can)
  have way := settled.way map List.mem_cons_self
  obtain ⟨clear, proper, free⟩ := (clear_directory_iff h.plain).1 h.clear
  refine ⟨h.plain, h.short, (clear_directory_iff h.plain).2 ⟨⟨clear.names, ?_, ?_⟩, proper, ?_⟩, ?_, ?_⟩
  · rw [keeps.origin]
    exact keeps.directory _ clear.home
  · rw [way_eq settled.home]
    intro mid hm text he
    cases (way mid (way_out_subset can.plain out t hm)).symm.trans he
  · rw [dest_eq settled.home]
    intro text he
    by_cases on_way : t.dest out ++ [map'.name] ∈ t.way (map.directory out)
    · cases (way _ on_way).symm.trans he
    · rw [settled.frame] at he
      · exact free text he
      · rw [List.forall_mem_singleton, dest_file can.plain]
        exact ⟨by simp, on_way⟩
  · rw [way_eq settled.home, dest_eq settled.home]
    exact h.apart
  · rw [dest_eq settled.home, settled.frame]
    · exact h.free
    · rw [List.forall_mem_singleton]
      exact ⟨dest_file_ne_of_name h.plain can.plain names out t,
        dest_file_notMem_way h.plain can.plain h.apart⟩

theorem CanWrite.before {text : ModuleMap → String} (can : CanWrite map out t)
    (settled : Settled [map] out text t t') (h : CanWrite map' out t') : CanWrite map' out t := by
  have keeps := settled.keeps (by simpa using can)
  obtain ⟨-, proper, free⟩ := (clear_directory_iff h.plain).1 h.clear
  obtain ⟨clear, -⟩ := (clear_directory_iff can.plain).1 can.clear
  have apart := h.apart
  have beside := h.free
  rw [way_eq settled.home, dest_eq settled.home] at apart
  rw [dest_eq settled.home] at free beside
  refine ⟨h.plain, h.short, (clear_directory_iff h.plain).2 ⟨clear, proper, ?_⟩, apart, ?_⟩
  · intro text he
    by_cases on_way : t.dest out ++ [map'.name] ∈ t.way (map.directory out)
    · exact can.clear.free _ on_way text he
    · apply free text
      rw [settled.frame]
      · exact he
      · rw [List.forall_mem_singleton, dest_file can.plain]
        exact ⟨by simp, on_way⟩
  · exact fun hd => beside (keeps.directory _ hd)

theorem Settled.cons {text : ModuleMap → String} (first : Settled [map] out text t made)
    (later : Settled maps out text made t') (can : CanWrite map out t)
    (can' : ∀ m ∈ maps, CanWrite m out made) (names : ∀ m ∈ maps, map.name ≠ m.name) :
    Settled (map :: maps) out text t t' where
  home := later.home.trans first.home
  root := later.root.trans first.root
  file m hm := by
    rcases List.mem_cons.1 hm with rfl | hm
    -- Later maps have other files, and no directory of theirs stands where this one is.
    · rw [later.frame]
      · exact first.file m List.mem_cons_self
      · intro m' hm'
        rw [dest_eq first.home, way_eq first.home]
        exact ⟨dest_file_ne_of_name can.plain (can' m' hm').plain (names m' hm') out t,
          dest_file_notMem_way can.plain (can' m' hm').plain can.apart⟩
    · rw [← dest_eq first.home]
      exact later.file m hm
  way m hm mid hp := by
    rcases List.mem_cons.1 hm with rfl | hm
    · exact (later.keeps can').directory mid (first.way m List.mem_cons_self mid hp)
    · rw [← way_eq first.home] at hp
      exact later.way m hm mid hp
  frame place apart := by
    rw [List.forall_mem_cons] at apart
    rw [later.frame, first.frame]
    · rw [List.forall_mem_singleton]
      exact apart.1
    · intro m hm
      rw [dest_eq first.home, way_eq first.home]
      exact apart.2 m hm

section Writes

variable {paths : List Path}

theorem run_writeMaps_cons {path : Path}
    (h : (map.write out : StateM FileTree _).run t = (.ok path, made)) (rest : List ModuleMap) :
    (Command.writeMaps out (map :: rest) : StateM FileTree _).run t =
      let later := (Command.writeMaps out rest : StateM FileTree _).run made
      ((path :: later.1.1, later.1.2), later.2) := by
  rw [Command.writeMaps, run_bind_of_run h]
  rfl

theorem writes_of_writeMaps_cons
    (h : (Command.writeMaps out (map :: maps) : StateM FileTree _).run t = ((paths, none), t')) :
    ∃ path made rest, (map.write out : StateM FileTree _).run t = (.ok path, made) ∧
      (Command.writeMaps out maps : StateM FileTree _).run made = ((rest, none), t') := by
  cases hw : (map.write out : StateM FileTree _).run t with
  | mk r made =>
    cases r with
    | error e =>
      rw [Command.writeMaps, run_bind_of_run hw] at h
      cases h
    | ok path =>
      rw [run_writeMaps_cons hw] at h
      cases hr : (Command.writeMaps out maps : StateM FileTree _).run made with
      | mk later last =>
        obtain ⟨rest, failure⟩ := later
        rw [hr] at h
        cases h
        exact ⟨path, made, rest, rfl, hr⟩

theorem canWrite_of_writeMaps
    (h : (Command.writeMaps out maps : StateM FileTree _).run t = ((paths, none), t')) :
    (∀ map ∈ maps, CanWrite map out t) ∧ Keeps t t' ∧
      ∀ map ∈ maps, ∀ mid ∈ t.way (map.directory out), t'.entry? mid = some .directory := by
  induction maps generalizing t paths with
  | nil =>
    cases h
    exact ⟨by simp, .refl _, by simp⟩
  | cons map maps ih =>
    obtain ⟨path, made, rest, write, writes⟩ := writes_of_writeMaps_cons h
    have can := canWrite_of_write write
    have first := settled_of_write write
    obtain ⟨can', keeps, way⟩ := ih writes
    refine ⟨?_, (first.keeps (by simpa using can)).trans keeps, ?_⟩
    · rw [List.forall_mem_cons]
      -- What could be written after `map` could be written before it.
      exact ⟨can, fun m hm => can.before first (can' m hm)⟩
    · rw [List.forall_mem_cons]
      refine ⟨fun mid hm => keeps.directory mid (first.way map List.mem_cons_self mid hm), ?_⟩
      intro m hm mid hp
      rw [← way_eq first.home] at hp
      exact way m hm mid hp

theorem render_congr {isDirectory isDirectory' : Path → Bool}
    (h : ∀ header ∈ map.headers, isDirectory ⟨header⟩ = isDirectory' ⟨header⟩) :
    map.render isDirectory = map.render isDirectory' := by
  rw [render, render, List.map_congr_left fun header hm => by rw [h header hm]]

theorem settled_of_canWrite {final : FileTree} (names : maps.Pairwise (·.name ≠ ·.name))
    (can : ∀ map ∈ maps, CanWrite map out t) (keeps : Keeps t final)
    (way : ∀ map ∈ maps, ∀ mid ∈ t.way (map.directory out), final.entry? mid = some .directory)
    (headers : ∀ map ∈ maps, ∀ header ∈ map.headers,
      final.isDirectory ⟨header⟩ = true → t.isDirectory ⟨header⟩ = true) :
    ∃ t', (Command.writeMaps out maps : StateM FileTree _).run t =
        ((maps.map (·.file out), none), t') ∧
      Settled maps out (fun map => map.render final.isDirectory) t t' := by
  induction maps generalizing t with
  | nil => exact ⟨t, rfl, .nil _ t⟩
  | cons map maps ih =>
    obtain ⟨apart, names⟩ := List.pairwise_cons.1 names
    obtain ⟨can, can'⟩ := List.forall_mem_cons.1 can
    obtain ⟨on_way, way'⟩ := List.forall_mem_cons.1 way
    obtain ⟨header, headers'⟩ := List.forall_mem_cons.1 headers
    obtain ⟨made, write⟩ := can.write
    have first := settled_of_write write
    have before : Keeps t made := first.keeps (by simpa using can)
    -- The directories that come up are among those of `final`, so no header changes meanwhile.
    have after : Keeps made final := first.keeps_of_way keeps (by simpa using on_way)
    have now : Settled [map] out (fun map => map.render final.isDirectory) t made := by
      refine first.congr fun m hm => ?_
      obtain rfl := List.mem_singleton.1 hm
      refine render_congr fun h hh => Bool.eq_iff_iff.2 ⟨after.isDirectory, fun hd => ?_⟩
      exact before.isDirectory (header h hh hd)
    have can' : ∀ m ∈ maps, CanWrite m out made := fun m hm =>
      (can' m hm).after can (Ne.symm (apart m hm)) first
    have way' : ∀ m ∈ maps, ∀ mid ∈ made.way (m.directory out),
        final.entry? mid = some .directory := by
      intro m hm mid hp
      rw [way_eq first.home] at hp
      exact way' m hm mid hp
    obtain ⟨t', run, later⟩ := ih names can' after way' fun m hm h hh hd =>
      before.isDirectory (headers' m hm h hh hd)
    refine ⟨t', ?_, now.cons later can can' apart⟩
    rw [run_writeMaps_cons write, run]
    rfl

end Writes

section Again

variable {σ : Type} [FileSystem (StateM σ)] {s : σ} {p : Path} {isDirectory : Path → Bool}
variable (asks : ∀ p, (FileSystem.isDirectory p : StateM σ Bool).run s = (isDirectory p, s))
include asks

theorem run_ensureDirectories_found (hp : p.text ≠ "") (found : isDirectory p = true)
    (creates : (FileSystem.createDirectory p : StateM σ _).run s = (.error .alreadyExists, s)) :
    (FileSystem.ensureDirectories p : StateM σ _).run s = (.ok (), s) := by
  obtain ⟨above, ha⟩ := ascend_eq_cons p p.steps.length
  have there := asks p
  rw [found] at there
  rw [FileSystem.ensureDirectories, ancestors, ha, FileSystem.ensureChain, if_neg hp,
    run_bind_of_run creates]
  exact run_bind_of_run there

theorem run_write_current (plain : Path.isPlainName map.name = true)
    (found : isDirectory (map.directory out) = true)
    (creates : (FileSystem.createDirectory (map.directory out) : StateM σ _).run s =
      (.error .alreadyExists, s))
    (reads : (FileSystem.readText (map.file out) : StateM σ _).run s =
      (.ok (map.render isDirectory), s)) :
    (map.write out : StateM σ _).run s = (.ok (map.file out), s) := by
  have ensures := run_ensureDirectories_found asks (text_directory_ne plain out) found creates
  rw [write, plain]
  refine (run_bind_of_run ensures).trans ?_
  refine (run_bind_of_run (run_renderNow asks map)).trans ?_
  refine (run_bind_of_run reads).trans ?_
  dsimp only
  rw [if_pos rfl]
  rfl

end Again

/-- The directory of a map is there, and its file is up to date. -/
structure Current (map : ModuleMap) (out : Path) (t : FileTree) : Prop where
  plain : Path.isPlainName map.name = true
  directory : t.isDirectory (map.directory out) = true
  file : t.readText (map.file out) = .ok (map.render t.isDirectory)

theorem Current.run_write (h : Current map out t) (written : List Path) :
    (map.write out : StateM Journal _).run ⟨t, written⟩ = (.ok (map.file out), ⟨t, written⟩) := by
  have there := createDirectory_there (not_endsIdle_directory h.plain out) h.directory
  have creates : (FileSystem.createDirectory (map.directory out) : StateM Journal _).run
      ⟨t, written⟩ = (.error .alreadyExists, ⟨t, written⟩) := by
    change Journal.onTree (attempt (·.createDirectory _)) _ = _
    simp only [Journal.onTree, attempt, there]
  have reads : (FileSystem.readText (map.file out) : StateM Journal _).run ⟨t, written⟩ =
      (.ok (map.render t.isDirectory), ⟨t, written⟩) := by
    rw [← h.file]
    rfl
  exact run_write_current (fun _ => rfl) h.plain h.directory creates reads

theorem run_writeMaps_current (h : ∀ map ∈ maps, Current map out t) (written : List Path) :
    (Command.writeMaps out maps : StateM Journal _).run ⟨t, written⟩ =
      ((maps.map (·.file out), none), ⟨t, written⟩) := by
  induction maps with
  | nil => rfl
  | cons map maps ih =>
    rw [List.forall_mem_cons] at h
    rw [Command.writeMaps, run_bind_of_run (h.1.run_write written), run_bind_of_run (ih h.2)]
    rfl

/-- Let maps of different names all be written, and no header path become a directory by that. Then
each file has the text that its map has in the end, any other order gives the same tree, and writing
the maps again, in whatever order, writes no file. -/
theorem writes_settle (maps : List ModuleMap) (out : Path) {paths : List Path} {t t' : FileTree}
    (names : (maps.map (·.name)).Nodup)
    (h : (Command.writeMaps out maps : StateM FileTree _).run t = ((paths, none), t'))
    (headers : ∀ map ∈ maps, ∀ header ∈ map.headers,
      t'.isDirectory ⟨header⟩ = true → t.isDirectory ⟨header⟩ = true) :
    (∀ map ∈ maps, t'.readText (map.file out) = .ok (map.render t'.isDirectory)) ∧
    (∀ others : List ModuleMap, others.Perm maps →
      (Command.writeMaps out others : StateM FileTree _).run t =
        ((others.map (·.file out), none), t')) ∧
    ∀ again : List ModuleMap, again.Perm maps →
      (Command.writeMaps out again : StateM Journal _).run ⟨t', []⟩ =
        ((again.map (·.file out), none), ⟨t', []⟩) := by
  obtain ⟨can, keeps, way⟩ := canWrite_of_writeMaps h
  have settle {others : List ModuleMap} (perm : others.Perm maps) :
      ∃ last, (Command.writeMaps out others : StateM FileTree _).run t =
          ((others.map (·.file out), none), last) ∧
        Settled maps out (fun map => map.render t'.isDirectory) t last := by
    have apart : others.Pairwise (·.name ≠ ·.name) :=
      List.pairwise_map.1 ((perm.map _).nodup_iff.2 names)
    obtain ⟨last, run, settled⟩ := settled_of_canWrite apart
      (fun map hm => can map (perm.mem_iff.1 hm)) keeps (fun map hm => way map (perm.mem_iff.1 hm))
      fun map hm => headers map (perm.mem_iff.1 hm)
    exact ⟨last, run, settled.of_perm perm.symm⟩
  obtain ⟨last, run, settled⟩ := settle (.refl maps)
  obtain rfl : last = t' := congrArg Prod.snd (run.symm.trans h)
  have current : ∀ map ∈ maps, Current map out last := by
    intro map hm
    refine ⟨(can map hm).plain, (can map hm).isDirectory_directory settled.home (settled.way map hm), ?_⟩
    have located := (can map hm).locate_file settled.home (settled.way map hm)
    exact readText_eq_ok_iff.2 (lookup_eq_ok_iff.2 ⟨_, located, settled.file map hm⟩)
  refine ⟨fun map hm => (current map hm).file, fun others perm => ?_, fun again perm => ?_⟩
  · obtain ⟨last', run', settled'⟩ := settle perm
    rw [run', settled'.unique settled]
  · exact run_writeMaps_current (fun map hm => current map (perm.mem_iff.1 hm)) []

def headersTree : FileTree :=
  (FileTree.rooted ["w"]).put ["w", "inc"] .directory

theorem writes_settle_headers :
    let json : ModuleMap := ⟨"Json", ["inc", "inc/Json.h"]⟩
    let core : ModuleMap := ⟨"Core", ["/w/inc"]⟩
    let out : Path := ⟨"maps/"⟩
    let t' := ((Command.writeMaps out [json, core] : StateM FileTree _).run headersTree).2
    t'.readText (json.file out) = .ok (json.render t'.isDirectory) ∧
      (Command.writeMaps out [core, json] : StateM FileTree _).run headersTree =
        (([core.file out, json.file out], none), t') ∧
      (Command.writeMaps out [core, json] : StateM Journal _).run ⟨t', []⟩ =
        (([core.file out, json.file out], none), ⟨t', []⟩) := by
  intro json core out t'
  have succeeds : ((Command.writeMaps out [json, core] : StateM FileTree _).run headersTree).1 =
      ([json.file out, core.file out], none) := by decide +kernel
  have headers : ∀ map ∈ [json, core], ∀ header ∈ map.headers,
      t'.isDirectory ⟨header⟩ = true → headersTree.isDirectory ⟨header⟩ = true := by decide +kernel
  obtain ⟨texts, others, again⟩ :=
    writes_settle [json, core] out (by decide) (Prod.ext succeeds rfl) headers
  exact ⟨texts json List.mem_cons_self, others _ (.swap json core []), again _ (.swap json core [])⟩

/-- A header path may lead through a directory that a later map is written to, and so be a directory
only from then on. Its own map is out of date then. -/
theorem outdated_by_later_directory :
    let map : ModuleMap := ⟨"A", ["maps/B/../../inc"]⟩
    let maps : List ModuleMap := [map, ⟨"B", []⟩]
    let out : Path := ⟨"maps"⟩
    let t' := ((Command.writeMaps out maps : StateM FileTree _).run headersTree).2
    (maps.map (·.name)).Nodup ∧
      ((Command.writeMaps out maps : StateM FileTree _).run headersTree).1 =
        (maps.map (·.file out), none) ∧
      (∀ map ∈ maps, ∀ header ∈ map.headers, ∀ place, t'.locate ⟨header⟩ = .ok place →
        t'.entry? place = some .directory → headersTree.entry? place = some .directory) ∧
      t'.readText (map.file out) ≠ .ok (map.render t'.isDirectory) := by
  intro map maps out t'
  refine ⟨by decide, by decide +kernel, ?_, by decide +kernel⟩
  have located : t'.locate ⟨"maps/B/../../inc"⟩ = .ok ["w", "inc"] := by decide +kernel
  simp only [maps, map, List.forall_mem_cons, List.not_mem_nil, false_imp_iff, implies_true, and_true]
  intro place hl _
  rw [located, Except.ok.injEq] at hl
  subst hl
  decide

end ModuleMap

end NativeBuild
