import NativeBuild.Text.Unprintable

namespace NativeBuild.Text

def codePoint (c : Char) : List Char :=
  "\\u\x7b".toList ++ Nat.toDigits 16 c.toNat ++ ['\x7d']

def escaped (c : Char) : List Char :=
  match c with
  | '\x00' => ['\\', '0']
  | '\t' => ['\\', 't']
  | '\n' => ['\\', 'n']
  | '\r' => ['\\', 'r']
  | '\x22' => ['\\', '\x22']
  | '\\' => ['\\', '\\']
  | c => if isUnprintable c then codePoint c else [c]

def quoted (s : String) : String :=
  "\"" ++ String.ofList (s.toList.flatMap escaped) ++ "\""

end NativeBuild.Text
