import NativeBuild.Scanner
import NativeBuild.Text.Digits

namespace NativeBuild.Toml

open Scanner

def bounded (width lo hi : Nat) : Scanner Nat := do
  let n := Text.ofDigits 10 (← count Char.isDigit width)
  if lo ≤ n && n ≤ hi then return n else giveUp

def isLeapYear (year : Nat) : Bool :=
  year % 4 == 0 && (year % 100 != 0 || year % 400 == 0)

def daysIn (year month : Nat) : Nat :=
  if month = 2 then if isLeapYear year then 29 else 28
  else if month ∈ [4, 6, 9, 11] then 30 else 31

def date : Scanner Unit := do
  let year ← bounded 4 0 9999
  char '-'
  let month ← bounded 2 1 12
  char '-'
  let _ ← bounded 2 1 (daysIn year month)

def time : Scanner Unit := do
  let _ ← bounded 2 0 23
  char ':'
  let _ ← bounded 2 0 59
  char ':'
  let _ ← bounded 2 0 60
  if ← tokenIf ['.'] then
    let _ ← takeWhile1 Char.isDigit

def timeOffset : Scanner Unit := do
  if (← tokenIf ['Z']) || (← tokenIf ['z']) then return
  let _ ← satisfy fun c => c == '+' || c == '-'
  let _ ← bounded 2 0 23
  char ':'
  let _ ← bounded 2 0 59

def datetime : Scanner Scalar := do
  let text ← ahead
  let start ← offset
  match ← perhaps date with
  | some () =>
    let timed ← perhaps do
      let _ ← satisfy fun c => c == 'T' || c == 't' || c == ' '
      time
    if timed.isSome then
      let _ ← perhaps timeOffset
  | none => time
  let size := (← offset) - start
  return .datetime (String.ofList (text.take size))

def isDatetime (text : String) : Bool :=
  match datetime ⟨text.toList, 0⟩ with
  | some (_, c) => c.rest.isEmpty
  | none => false

end NativeBuild.Toml
