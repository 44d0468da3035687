import NativeBuild.Scanner

namespace NativeBuild.Toml

def isSpace (c : Char) : Bool := c == ' ' || c == '\t'

def isPlain (c : Char) : Bool := c == '\t' || (0x20 ≤ c.toNat && c.toNat != 0x7f)

def spaces : Scanner Unit := do let _ ← Scanner.takeWhile isSpace

def newline? : Scanner Bool := do
  if ← Scanner.tokenIf ['\n'] then return true
  Scanner.tokenIf ['\r', '\n']

def comment? : Scanner Bool := do
  if ← Scanner.tokenIf ['#'] then
    let _ ← Scanner.takeWhile isPlain
    return true
  else return false

def lineEnd : Scanner Unit := do
  if (← Scanner.peek).isNone then return
  if ← newline? then return
  Scanner.giveUp

def restOfLine : Scanner Unit := do
  spaces
  let _ ← comment?
  lineEnd

def blankLines : Scanner Unit := do
  let _ ← Scanner.repeated do
    let c ← Scanner.peek
    if c.any isSpace then
      spaces
      return some ()
    else if ← newline? then return some ()
    else if ← comment? then
      if ← newline? then return some () else Scanner.giveUp
    else return none

end NativeBuild.Toml
