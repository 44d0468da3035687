import NativeBuild.Text.Alphanumeric
import NativeBuild.Text.Uppercase

namespace NativeBuild

def capitalizeChars : List Char → List Char
  | [] => []
  | c :: rest => Text.upper c ++ rest

def capitalize (name : String) : String :=
  String.ofList (capitalizeChars name.toList)

def withStem (stem name : String) : String :=
  stem ++ capitalize name

def words (cs : List Char) : List (List Char) :=
  (cs.splitOnP fun c => !Text.isAlphanumeric c).filter (!·.isEmpty)

/-- The words of a project name in camel case. A name that would start with a decimal digit gets an
underscore in front. -/
def moduleNameChars (cs : List Char) : List Char :=
  let joined := (words cs).flatMap capitalizeChars
  match joined with
  | c :: _ => if c.isDigit then '_' :: joined else joined
  | [] => joined

def moduleName (projectName : String) : String :=
  String.ofList (moduleNameChars projectName.toList)

def isModuleNameChar (c : Char) : Bool :=
  Text.isAlphanumeric c || c == '_'

def isModuleName (name : String) : Bool :=
  !name.toList.isEmpty && name.toList.all isModuleNameChar

end NativeBuild
