import NativeBuild.Project.Load
import NativeBuild.Proofs.Files.Tree
import NativeBuild.Proofs.Project.Anchoring

namespace NativeBuild

open FileTree

theorem Manifest.run_load (file : Path) (t : FileTree) : (load file : StateM FileTree _).run t = (do
    let text ← (t.readText file).mapError (cannotRead file)
    (parse text).mapError (invalid file text), t) := by
  have read : (FileSystem.readText file : StateM FileTree _).run t = (t.readText file, t) := rfl
  rw [load, StateT.run_bind, read]
  cases t.readText file with
  | error e => rfl
  | ok text => rfl

namespace Project

variable {t : FileTree} {file : Path} {loaded : Project × Repository}

theorem run_load (file : Path) (t : FileTree) : (load file : StateM FileTree _).run t = (do
    let text ← (t.readText file).mapError (Manifest.cannotRead file)
    let m ← (Manifest.parse text).mapError (Manifest.invalid file text)
    (ofManifest (pathOf t.workingPlace) m (rootOf file)).mapError .ofBuildError, t) := by
  rw [load, StateT.run_bind, Manifest.run_load, ← bind_assoc]
  generalize (do
    let text ← (t.readText file).mapError (Manifest.cannotRead file)
    (Manifest.parse text).mapError (Manifest.invalid file text) : Except Diagnostic Manifest) = read
  cases read with
  | error d => rfl
  | ok m => rfl

theorem load_eq_ok_iff : ((load file : StateM FileTree _).run t).1 = .ok loaded ↔
    ∃ text m, t.readText file = .ok text ∧ Manifest.parse text = .ok m ∧
      ofManifest (pathOf t.workingPlace) m (rootOf file) = .ok loaded := by
  simp only [run_load, bind_eq_ok, mapError_eq_ok, exists_and_left]

theorem ofManifest_congr {cwd root root' : Path}
    (h : Path.absolute? cwd root = Path.absolute? cwd root') (m : Manifest) :
    ofManifest cwd m root = .ok loaded ↔ ofManifest cwd m root' = .ok loaded := by
  obtain ⟨p, r⟩ := loaded
  simp only [ofManifest_eq_ok_iff, absoluteRoot_eq_ok_iff, h]

theorem ofManifest_empty (cwd : Path) (m : Manifest) : ofManifest cwd m ⟨""⟩ ≠ .ok loaded := by
  obtain ⟨p, r⟩ := loaded
  intro h
  obtain ⟨place, hp, -⟩ := ofManifest_eq_ok_iff.1 h
  cases absoluteRoot_eq_ok_iff.1 hp

theorem ofManifest_rootOf_join {cwd : Path} (normal : cwd.IsNormal)
    (relative : file.isAbsolute = false) (isFile : file.endsIdle = false) (m : Manifest) :
    ofManifest cwd m (rootOf file) = .ok loaded ↔
      '/' ∈ file.text.toList ∧ ofManifest cwd m (rootOf (cwd.join file)) = .ok loaded := by
  obtain ⟨above, ha⟩ := Path.exists_parent? (Path.trailOf_ne_nil isFile)
  have root : rootOf file = above := by simp [rootOf, ha]
  rw [root, ← Path.text_parent?_ne_empty_iff relative isFile ha]
  by_cases shown : above.text = ""
  · have bare : above = ⟨""⟩ := congrArg Path.mk shown
    simp [bare, ofManifest_empty]
  · obtain ⟨above', ha', e⟩ := normal.absolute?_parent?_join relative ha shown
    have root' : rootOf (cwd.join file) = above' := by simp [rootOf, ha']
    rw [root', ofManifest_congr e]
    exact (and_iff_right shown).symm

/-- A project is loaded by a relative path just as by the same path below the working directory, but
only if there is a slash in it: the bare name of a file shows no directory to start from. -/
theorem load_join (h : t.Grounded) (relative : file.isAbsolute = false)
    (short : ((pathOf t.workingPlace).join file).text.utf8ByteSize < maxPathSize)
    (loaded : Project × Repository) :
    ((load file : StateM FileTree _).run t).1 = .ok loaded ↔ '/' ∈ file.text.toList ∧
      ((load ((pathOf t.workingPlace).join file) : StateM FileTree _).run t).1 = .ok loaded := by
  have same (text : String) :
      t.readText ((pathOf t.workingPlace).join file) = .ok text ↔ t.readText file = .ok text := by
    rw [readText_eq_ok_iff, readText_eq_ok_iff, h.lookup_join_file relative short]
  have isFile {text : String} (read : t.readText file = .ok text) : file.endsIdle = false :=
    (lookup_file_iff.1 (readText_eq_ok_iff.1 read)).2.1
  simp only [load_eq_ok_iff, same]
  constructor
  · rintro ⟨text, m, read, parsed, ok⟩
    obtain ⟨slash, ok⟩ := (ofManifest_rootOf_join h.isNormal relative (isFile read) m).1 ok
    exact ⟨slash, text, m, read, parsed, ok⟩
  · rintro ⟨slash, text, m, read, parsed, ok⟩
    have ok := (ofManifest_rootOf_join h.isNormal relative (isFile read) m).2 ⟨slash, ok⟩
    exact ⟨text, m, read, parsed, ok⟩

def bareSite : FileTree :=
  (FileTree.rooted ["home"]).put ["home", "native.toml"] (.file "[project]\nname = \"app\"\n")

theorem grounded_bareSite : bareSite.Grounded where
  named := by decide +kernel
  inits := by decide +kernel

theorem parse_bareSite : Manifest.parse "[project]\nname = \"app\"\n" =
    .ok ⟨⟨"app", none, Manifest.defaultBuildDirectory, []⟩, [], [], []⟩ := by
  cbv

theorem load_bareSite (file : Path) (read : bareSite.readText file = .ok "[project]\nname = \"app\"\n")
    (root : (ofManifest ⟨"/home"⟩ ⟨⟨"app", none, Manifest.defaultBuildDirectory, []⟩, [], [], []⟩
      (rootOf file)).isOk = true) :
    ∃ loaded, ((load file : StateM FileTree _).run bareSite).1 = .ok loaded := by
  cases h : ofManifest ⟨"/home"⟩ ⟨⟨"app", none, Manifest.defaultBuildDirectory, []⟩, [], [], []⟩
      (rootOf file) with
  | error e => simp [h, Except.isOk, Except.toBool] at root
  | ok loaded => exact ⟨loaded, load_eq_ok_iff.2 ⟨_, _, read, parse_bareSite, h⟩⟩

theorem load_join_dotted :
    let file : Path := ⟨"./native.toml"⟩
    ∃ loaded, ((load file : StateM FileTree _).run bareSite).1 = .ok loaded ∧
      ((load ((pathOf bareSite.workingPlace).join file) : StateM FileTree _).run bareSite).1 =
        .ok loaded := by
  intro file
  obtain ⟨loaded, h⟩ := load_bareSite ((pathOf bareSite.workingPlace).join file) (by decide +kernel)
    (by decide +kernel)
  exact ⟨loaded, (load_join grounded_bareSite (by decide +kernel) (by decide +kernel) loaded).2
    ⟨by decide +kernel, h⟩, h⟩

/-- The bare name of a manifest does not load, and the joined path does. -/
theorem load_bare_refused :
    let file : Path := ⟨"native.toml"⟩
    (∀ loaded, ((load file : StateM FileTree _).run bareSite).1 ≠ .ok loaded) ∧
      ∃ loaded, ((load ((pathOf bareSite.workingPlace).join file) : StateM FileTree _).run
        bareSite).1 = .ok loaded := by
  intro file
  constructor
  · intro loaded h
    obtain ⟨text, m, -, -, ok⟩ := load_eq_ok_iff.1 h
    have root : rootOf file = ⟨""⟩ := by decide +kernel
    rw [root] at ok
    exact ofManifest_empty _ m ok
  · exact load_bareSite _ (by decide +kernel) (by decide +kernel)

end Project

end NativeBuild
