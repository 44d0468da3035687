import NativeBuild.Dict
import NativeBuild.Message.Number
import NativeBuild.Scanner

namespace NativeBuild.Message

open Scanner
open Text (isHexDigit ofDigits)

def isSpace (c : Char) : Bool := c == ' ' || c == '\t' || c == '\n' || c == '\r'

def spaces : Scanner Unit := do let _ ← takeWhile isSpace

def quote : Char := '\x22'

def codeUnit : Scanner Nat := return ofDigits 16 (← count isHexDigit 4)

def codePoint : Scanner Char := do
  let high ← codeUnit
  if 0xd800 ≤ high && high < 0xdc00 then
    token ['\\', 'u']
    let low ← codeUnit
    if 0xdc00 ≤ low && low < 0xe000 then
      return Char.ofNat (0x10000 + (high - 0xd800) * 0x400 + (low - 0xdc00))
    else giveUp
  else if high.isValidChar then return Char.ofNat high
  else giveUp

def escapedChar : Scanner Char := do
  match ← satisfy fun _ => true with
  | 'b' => return '\x08'
  | 't' => return '\t'
  | 'n' => return '\n'
  | 'f' => return '\x0c'
  | 'r' => return '\r'
  | 'u' => codePoint
  | c => if c == quote || c == '\\' || c == '/' then return c else giveUp

def string : Scanner String := do
  char quote
  let cs ← repeated do
    let some c ← peek | giveUp
    if c == quote then return none
    else if c == '\\' then
      char '\\'
      return some (← escapedChar)
    else return some (← satisfy (0x20 ≤ ·.toNat))
  char quote
  return String.ofList cs

def wholeDigits : Scanner (List Char) := do
  if ← tokenIf ['0'] then return ['0'] else takeWhile1 Char.isDigit

def fraction? : Scanner (Option (List Char)) := do
  if ← tokenIf ['.'] then return some (← takeWhile1 Char.isDigit) else return none

def exponent? : Scanner (Option Int) := do
  if (← tokenIf ['e']) || (← tokenIf ['E']) then
    let negative ← tokenIf ['-']
    if !negative then
      let _ ← tokenIf ['+']
    let n : Int := ofDigits 10 (← takeWhile1 Char.isDigit)
    return some (if negative then -n else n)
  else return none

def number : Scanner Scalar := do
  let negative ← tokenIf ['-']
  let whole ← wholeDigits
  let fraction ← fraction?
  let exponent ← exponent?
  let d := gathered negative whole (fraction.getD []) (exponent.getD 0)
  match if fraction.isNone && exponent.isNone then integer? d else none with
  | some n => return .integer n
  | none =>
    match doubleText? d with
    | some text => return .float text
    | none => giveUp

def items {α : Type} (closing : Char) (item : Scanner α) : Scanner (List α) := do
  spaces
  if ← tokenIf [closing] then return []
  let first ← item
  let others ← repeated do
    spaces
    if ← tokenIf [','] then return some (← item) else return none
  char closing
  return first :: others

def scalar : Scanner Scalar := do
  match ← peek with
  | some 'n' => token "null".toList; return .null
  | some 't' => token "true".toList; return .boolean true
  | some 'f' => token "false".toList; return .boolean false
  | c => if c == some quote then return .string (← string) else number

def entry (value : Scanner Document) : Scanner (String × Document) := do
  spaces
  let key ← string
  spaces
  char ':'
  return (key, ← value)

def table (entries : List (String × Document)) : Document :=
  .table ((Dict.ofList entries).entries.map fun e => (⟨e.1, none⟩, e.2)) none

def value : Nat → Scanner Document
  | 0 => do
    spaces
    return .scalar (← scalar) none
  | depth + 1 => do
    spaces
    if ← tokenIf ['['] then return .list (← items ']' (value depth)) none
    else if ← tokenIf ['\x7b'] then return table (← items '\x7d' (entry (value depth)))
    else return .scalar (← scalar) none

def maxDepth : Nat := 127

/-- The document a text is, if it is one. Of entries with the same key the last one counts, and
nothing knows its place in the text. -/
def parse? (text : String) : Option Document := do
  let (d, rest) ← (do let d ← value maxDepth; spaces; return d : Scanner Document) ⟨text.toList, 0⟩
  if rest.rest.isEmpty then some d else none

end NativeBuild.Message
