import NativeBuild.Files.Tree

namespace NativeBuild

structure Journal where
  tree : FileTree
  written : List Path
  deriving DecidableEq, Inhabited

namespace Journal

variable {α : Type}

def onTree (m : StateM FileTree α) : StateM Journal α := fun j =>
  let (a, tree) := m j.tree
  (a, { j with tree })

def note (p : Path) : StateM Journal Unit :=
  modify fun j => { j with written := j.written ++ [p] }

instance : FileSystem (StateM Journal) where
  isDirectory p := onTree (FileSystem.isDirectory p)
  isFile p := onTree (FileSystem.isFile p)
  readText p := onTree (FileSystem.readText p)
  createDirectory p := onTree (FileSystem.createDirectory p)
  writeText p text := do
    note p
    onTree (FileSystem.writeText p text)
  workingDirectory := onTree FileSystem.workingDirectory

end Journal

end NativeBuild
