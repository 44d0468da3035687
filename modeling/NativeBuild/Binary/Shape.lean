import NativeBuild.Binary
import NativeBuild.Document.Shape
import NativeBuild.ModuleMap

namespace NativeBuild

open Shape

def fewerItems (_ : Nat) : String := "fewer elements in array"

def BinaryIdentity.record (surplus : Option (Nat → String)) : RecordShape BinaryIdentity where
  title := "struct BinaryIdentity"
  fields :=
    [required "name" string fun s v => { s with name := v },
     required "debuggable" boolean fun s v => { s with debuggable := v },
     required "optimized" boolean fun s v => { s with optimized := v },
     optional "testable" boolean fun s v => { s with testable := v }]
  closed := false
  surplus := surplus

def BinaryIdentity.shape (surplus : Option (Nat → String)) : Shape BinaryIdentity :=
  (record surplus).read ⟨"", false, false, false⟩

def ModuleMap.shape : Shape ModuleMap :=
  RecordShape.read
    { title := "struct ModuleMap"
      fields :=
        [required "module_name" string fun s v => { s with name := v },
         required "public_header_paths" (listOf string) fun s v => { s with headers := v }]
      closed := false
      surplus := some fewerItems }
    ⟨"", []⟩

end NativeBuild
