namespace NativeBuild

structure BinaryIdentity where
  name : String
  debuggable : Bool
  optimized : Bool
  testable : Bool
  deriving DecidableEq, Inhabited

namespace BinaryIdentity

def debug : BinaryIdentity := ⟨"debug", true, false, false⟩
def release : BinaryIdentity := ⟨"release", true, true, false⟩
def test : BinaryIdentity := ⟨"test", true, false, true⟩

def conventional : List BinaryIdentity := [debug, release, test]

end BinaryIdentity

end NativeBuild
