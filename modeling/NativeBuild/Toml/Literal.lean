import NativeBuild.Decimal
import NativeBuild.Text.Digits
import NativeBuild.Toml.Blank
import NativeBuild.Toml.Datetime

namespace NativeBuild.Toml

open Scanner
open Text (isHexDigit ofDigits)

def quote : Char := '\x22'
def apostrophe : Char := '\x27'

def codePoint (digits : Nat) : Scanner Char := do
  let n := ofDigits 16 (← count isHexDigit digits)
  if n.isValidChar then return Char.ofNat n else giveUp

def escape : Scanner Char := do
  match ← satisfy fun _ => true with
  | 'b' => return '\x08'
  | 't' => return '\t'
  | 'n' => return '\n'
  | 'f' => return '\x0c'
  | 'r' => return '\r'
  | '\\' => return '\\'
  | 'u' => codePoint 4
  | 'U' => codePoint 8
  | c => if c == quote then return quote else giveUp

def basicString : Scanner String := do
  char quote
  let cs ← repeated do
    let some c ← peek | giveUp
    if c == quote then return none
    else if c == '\\' then
      char '\\'
      return some (← escape)
    else return some (← satisfy isPlain)
  char quote
  return String.ofList cs

def literalString : Scanner String := do
  char apostrophe
  let cs ← takeWhile fun c => isPlain c && c != apostrophe
  char apostrophe
  return String.ofList cs

def lineContinuation? : Scanner Bool := do
  match ← perhaps (do char '\\'; spaces; if ← newline? then pure () else giveUp) with
  | none => return false
  | some () =>
    let _ ← repeated do
      if (← peek).any isSpace then
        spaces
        return some ()
      else if ← newline? then return some () else return none
    return true

/-- A piece of a string of several lines, or nothing where three delimiters end it. One or two more
delimiters in front of the three belong to the string. -/
def piece (delimiter : Char) (escapes : Bool) : Scanner (Option (List Char)) := do
  let run := ((← ahead).takeWhile (· == delimiter)).length
  if run = 1 || run = 2 then
    token (List.replicate run delimiter)
    return some (List.replicate run delimiter)
  else if 3 ≤ run then return none
  else if escapes && (← peek) == some '\\' then
    if ← lineContinuation? then return some []
    char '\\'
    return some [← escape]
  else if ← newline? then return some ['\n']
  else return some [← satisfy isPlain]

def longString (delimiter : Char) (escapes : Bool) : Scanner String := do
  token (List.replicate 3 delimiter)
  -- A line end right after the delimiter does not count.
  let _ ← newline?
  let pieces ← repeated (piece delimiter escapes)
  let run := ((← ahead).takeWhile (· == delimiter)).length
  if run < 3 || 5 < run then giveUp
  token (List.replicate run delimiter)
  return String.ofList (pieces.flatten ++ List.replicate (run - 3) delimiter)

def anyString : Scanner String := do
  let text ← ahead
  if (List.replicate 3 quote).isPrefixOf text then longString quote true
  else if (List.replicate 3 apostrophe).isPrefixOf text then longString apostrophe false
  else if text.head? = some quote then basicString
  else literalString

def digits (isDigit : Char → Bool) : Scanner (List Char) := do
  let first ← takeWhile1 isDigit
  let groups ← repeated do
    if ← tokenIf ['_'] then return some (← takeWhile1 isDigit) else return none
  return first ++ groups.flatten

def plainDigits : Scanner (List Char) := do
  if ← tokenIf ['0'] then return ['0'] else digits Char.isDigit

def sign : Scanner Bool := do
  if ← tokenIf ['-'] then return true
  let _ ← tokenIf ['+']
  return false

def inRange (n : Int) : Bool := -Int.pow 2 63 ≤ n && n < Int.pow 2 63

def integer : Scanner Scalar := do
  let radix? ← radixOf
  let n : Int ← match radix? with
    | some (base, isDigit) => pure (ofDigits base (← digits isDigit) : Int)
    | none => do
      let negative ← sign
      let n : Int := ofDigits 10 (← plainDigits)
      pure (if negative then -n else n)
  if inRange n then return .integer n else giveUp
where
  radixOf : Scanner (Option (Nat × (Char → Bool))) := do
    if ← tokenIf ['0', 'x'] then return some (16, isHexDigit)
    if ← tokenIf ['0', 'o'] then return some (8, fun c => '0' ≤ c && c ≤ '7')
    if ← tokenIf ['0', 'b'] then return some (2, fun c => c == '0' || c == '1')
    return none

def exponent? : Scanner (Option Int) := do
  if (← tokenIf ['e']) || (← tokenIf ['E']) then
    let negative ← sign
    let n : Int := ofDigits 10 (← digits Char.isDigit)
    return some (if negative then -n else n)
  else return none

def decimal : Scanner Scalar := do
  let negative ← sign
  let whole ← plainDigits
  let fraction? : Option (List Char) ←
    if ← tokenIf ['.'] then pure (some (← digits Char.isDigit)) else pure none
  let exponent? ← exponent?
  if fraction?.isNone && exponent?.isNone then giveUp
  let fraction := fraction?.getD []
  let d : Decimal :=
    ⟨negative, ofDigits 10 (whole ++ fraction), exponent?.getD 0 - (fraction.length : Int)⟩
  -- Of the numbers beyond all doubles only the positive ones are refused.
  if !negative && d.toDouble == .infinite then giveUp
  return .float d.doubleText

def specialFloat : Scanner Scalar := do
  let negative ← sign
  if ← tokenIf "inf".toList then return .float (if negative then "-inf" else "inf")
  token "nan".toList
  return .float "NaN"

def bareScalar : Scanner Scalar := do
  match ← peek with
  | some 't' => token "true".toList; return .boolean true
  | some 'f' => token "false".toList; return .boolean false
  | _ =>
    -- The first reading that fits is taken.
    if let some s ← perhaps datetime then return s
    if let some s ← perhaps decimal then return s
    if let some s ← perhaps specialFloat then return s
    integer

end NativeBuild.Toml
