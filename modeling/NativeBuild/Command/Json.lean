namespace NativeBuild

inductive Json
  | string (value : String)
  | list (items : List Json)
  | object (entries : List (String × Json))

namespace Json

def codeUnit (c : Char) : List Char :=
  let digits := Nat.toDigits 16 c.toNat
  ['\\', 'u'] ++ List.replicate (4 - digits.length) '0' ++ digits

def escape (c : Char) : List Char :=
  match c with
  | '\x22' => ['\\', c]
  | '\\' => ['\\', c]
  | '\n' => ['\\', 'n']
  | '\r' => ['\\', 'r']
  | '\t' => ['\\', 't']
  | '\x08' => ['\\', 'b']
  | '\x0c' => ['\\', 'f']
  | c => if c.toNat < 0x20 then codeUnit c else [c]

def quoted (s : String) : String :=
  "\"" ++ String.ofList (s.toList.flatMap escape) ++ "\""

def indentation (depth : Nat) : String :=
  String.ofList (List.replicate (2 * depth) ' ')

def bracketed (depth : Nat) (opening closing : String) : List String → String
  | [] => opening ++ closing
  | lines =>
    opening ++ "\n" ++ ",\n".intercalate (lines.map (indentation (depth + 1) ++ ·)) ++ "\n"
      ++ indentation depth ++ closing

mutual

def pretty (depth : Nat) : Json → String
  | .string value => quoted value
  | .list items => bracketed depth "[" "]" (prettyItems (depth + 1) items)
  | .object entries => bracketed depth "\x7b" "\x7d" (prettyEntries (depth + 1) entries)

def prettyItems (depth : Nat) : List Json → List String
  | [] => []
  | item :: rest => item.pretty depth :: prettyItems depth rest

def prettyEntries (depth : Nat) : List (String × Json) → List String
  | [] => []
  | (key, item) :: rest =>
    (quoted key ++ ": " ++ item.pretty depth) :: prettyEntries depth rest

end

end Json

end NativeBuild
