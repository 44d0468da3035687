import NativeBuild.Command.Run

namespace NativeBuild

def FileError.ofSystem : IO.Error → FileError
  | .noFileOrDirectory .. => .notFound
  | .alreadyExists .. => .alreadyExists
  | .inappropriateType _ code _ => if code = 21 then .isDirectory else .notDirectory
  | e => .other (toString e)

def attemptFile {α : Type} (action : IO α) : IO (Except FileError α) := do
  try
    return .ok (← action)
  catch e =>
    return .error (.ofSystem e)

def hasType (type : IO.FS.FileType) (p : Path) : IO Bool := do
  let found ← attemptFile do
    return (← (← IO.FS.realPath p.text).metadata).type
  match found with
  | .ok t => return t == type
  | .error _ => return false

instance : FileSystem IO where
  isDirectory := hasType .dir
  isFile := hasType .file
  readText p := attemptFile (IO.FS.readFile p.text)
  createDirectory p := attemptFile (IO.FS.createDir p.text)
  writeText p text := attemptFile (IO.FS.writeFile p.text text)
  workingDirectory := return ⟨(← IO.currentDir).toString⟩

def Report.render : Report → String
  | .text told => told
  | .drawn d => d.draw
  | .usage => "error: the arguments cannot be read\n\n" ++ Command.helpText

end NativeBuild

open NativeBuild in
def main (arguments : List String) : IO UInt32 := do
  let outcome ← (Command.runArguments arguments : IO Outcome)
  (← IO.getStdout).putStr outcome.output
  (← IO.getStderr).putStr outcome.report.render
  return outcome.status.toUInt32
